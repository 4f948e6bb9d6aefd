import ForgeRelay.Decimal.Binary64

/-!
# The shortest decimal of a double

`Shortest.digits` finds the decimal with the fewest digits that reads back as a given double, and
of several the nearest one.  A decimal reads back if it lies between the two midpoints to the
neighbouring doubles (`Interval`); the ends count if the significand is even.  For each number of
digits the two decimals around the value are tried.

`Shortest.text` sets the digits: with an exponent below 1e-5 and from 1e16 on, otherwise with a
point among them.
-/

namespace ForgeRelay

namespace Shortest

/-- a value and the midpoints around it, as multiples of a quarter of the least double -/
structure Interval where
  low : Nat
  value : Nat
  high : Nat
  closed : Bool

open Binary64 in
def Interval.of (m : Nat) : Interval :=
  let step := 1 <<< scale m
  let value := 4 * units m
  let below := if significand m = binade ∧ 1 < m / binade then step else 2 * step
  ⟨value - below, value, value + 2 * step, significand m % 2 = 0⟩

/-- denominator of the numbers of an interval -/
def parts : Nat := 4 * Binary64.parts

/-- whether `num / den` lies in the interval -/
def Interval.holds (i : Interval) (num den : Nat) : Bool :=
  let x := num * parts
  if i.closed then i.low * den ≤ x && x ≤ i.high * den
  else i.low * den < x && x < i.high * den

/-- a decimal: the digits as one number, and the exponent of its last digit -/
structure Decimal where
  digits : Nat
  exponent : Int
  deriving DecidableEq, Repr

/-- numerator and denominator of a power of ten -/
def power (e : Int) : Nat × Nat :=
  match e with
  | .ofNat n => (Nat.pow 10 n, 1)
  | .negSucc n => (1, Nat.pow 10 (n + 1))

/-- the exponent of the first digit of `value / parts`, for a positive value -/
def leading (value : Nat) : Int :=
  ((Nat.toDigits 10 (value * Nat.pow 10 400 / parts)).length : Int) - 401

/-- the decimal at exponent `e` that reads back and is nearest, if there is one -/
def onGrid? (i : Interval) (e : Int) : Option Decimal :=
  let (num, den) := power e
  let a := i.value * den / (parts * num)
  let fits (d : Nat) : Bool := i.holds (d * num) den
  match fits a, fits (a + 1) with
  | false, false => none
  | true, false => some ⟨a, e⟩
  | false, true => some ⟨a + 1, e⟩
  | true, true =>
    let down := i.value * den - a * num * parts
    let up := (a + 1) * num * parts - i.value * den
    if down < up then some ⟨a, e⟩
    else if up < down then some ⟨a + 1, e⟩
    else some ⟨a + a % 2, e⟩

/-- tries one more digit at a time, `fuel` times -/
def search (i : Interval) : Nat → Int → Decimal
  | 0, e => ⟨i.value * (power e).2 / (parts * (power e).1), e⟩
  | fuel + 1, e =>
    match onGrid? i e with
    | some d => d
    | none => search i fuel (e - 1)

/-- drops zeros at the end -/
def strip : Nat → Decimal → Decimal
  | 0, d => d
  | fuel + 1, d =>
    if d.digits ≠ 0 ∧ d.digits % 10 = 0 then strip fuel ⟨d.digits / 10, d.exponent + 1⟩ else d

/-- the shortest decimal of a positive finite magnitude -/
def decimal (m : Nat) : Decimal :=
  let i := Interval.of m
  strip 20 (search i 17 (leading i.value))

/-! ## setting the digits -/

/-- digits with the point after the first `point` of them, which may lie outside -/
def positional (digits : List Char) (point : Int) : List Char :=
  match point with
  | .ofNat 0 => '0' :: '.' :: digits
  | .ofNat n =>
    if n < digits.length then digits.take n ++ '.' :: digits.drop n
    else digits ++ List.replicate (n - digits.length) '0' ++ ['.', '0']
  | .negSucc k => '0' :: '.' :: List.replicate (k + 1) '0' ++ digits

/-- one digit before the point, and an exponent with its sign -/
def scientific (digits : List Char) (exponent : Int) : List Char :=
  let mantissa := match digits with
    | [] => []
    | [d] => [d]
    | d :: ds => d :: '.' :: ds
  let sign := if exponent < 0 then '-' else '+'
  mantissa ++ 'e' :: sign :: Nat.toDigits 10 exponent.natAbs

/-- the text of a finite magnitude -/
def magnitudeText (m : Nat) : List Char :=
  if m = 0 then ['0', '.', '0']
  else
    let d := decimal m
    let digits := Nat.toDigits 10 d.digits
    let point := d.exponent + digits.length
    if -5 < point ∧ point ≤ 16 then positional digits point else scientific digits (point - 1)

/-- the text of a finite double -/
def text (x : Binary64) : List Char :=
  if x.negative then '-' :: magnitudeText x.magnitude else magnitudeText x.magnitude

end Shortest

end ForgeRelay
