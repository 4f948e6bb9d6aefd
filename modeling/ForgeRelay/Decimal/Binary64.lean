/-!
# Doubles

A `Binary64` is a sign and a magnitude: the eleven bits of exponent and the 52 bits of fraction of
the IEEE 754 format, read as one number.  All of it is natural arithmetic: `significand` and
`scale` give a magnitude as `significand · 2^scale / 2^1074`, and `nearest` rounds a quotient to
the nearest magnitude, a tie to the even one.
-/

namespace ForgeRelay

structure Binary64 where
  negative : Bool
  magnitude : Nat
  deriving DecidableEq, Repr

namespace Binary64

/-- the weight of one step of the exponent within a magnitude -/
def binade : Nat := 1 <<< 52

/-- the magnitude of infinity; finite ones lie below it -/
def infinite : Nat := 0x7ff <<< 52

/-- the finite values are multiples of one part in this many -/
def parts : Nat := 1 <<< 1074

def significand (m : Nat) : Nat :=
  if m < binade then m else m % binade + binade

def scale (m : Nat) : Nat := m / binade - 1

/-- the value in multiples of the least one -/
def units (m : Nat) : Nat := significand m <<< scale m

def isFinite (x : Binary64) : Bool := x.magnitude < infinite

/-! ## rounding -/

/-- the nearest natural number to a quotient, a tie going to the even one -/
def roundEven (num den : Nat) : Nat :=
  let q := num / den
  let r := num % den
  if 2 * r < den then q
  else if den < 2 * r then q + 1
  else q + q % 2

/-- the magnitude nearest to `num / den`, capped at infinity -/
def nearest (num den : Nat) : Nat :=
  let n := num * parts
  let k := Nat.log2 (n / den) - 52
  min infinite (k * binade + roundEven n (den <<< k))

def ofNat (n : Nat) : Nat := nearest n 1

def mul (a b : Nat) : Nat := nearest (units a * units b) (parts * parts)
def div (a b : Nat) : Nat := nearest (units a) (units b)

/-! ## decimals -/

/-- the magnitude nearest to a power of ten -/
def pow10 (e : Nat) : Nat := nearest (Nat.pow 10 e) 1

/-- `m / 10^(308 n)`, a step at a time -/
def shrink : Nat → Nat → Nat
  | 0, m => m
  | n + 1, m => if m = 0 then 0 else shrink n (div m (pow10 308))

/-- `digits · 10^exponent` as two roundings: the digits to a double, and that double scaled by a
power of ten that is a double itself.  Steps of 10^308 serve an exponent below -308.  Nothing if
the result is not finite. -/
def scaled? (digits : Nat) (exponent : Int) : Option Nat :=
  let m := ofNat digits
  if digits = 0 then some 0
  else match exponent with
    | .ofNat e =>
      if e ≤ 308 then
        let p := mul m (pow10 e)
        if p < infinite then some p else none
      else none
    | .negSucc k =>
      let e := k + 1
      if e ≤ 308 then some (div m (pow10 e))
      else
        let steps := (e - 1) / 308
        some (div (shrink steps m) (pow10 (e - 308 * steps)))

/-- `digits · 10^exponent` rounded once; nothing if the result is not finite -/
def rounded? (digits : Nat) (exponent : Int) : Option Nat :=
  let size : Int := (Nat.toDigits 10 digits).length
  if digits = 0 then some 0
  else if exponent + size > 400 then none
  else if exponent + size < -400 then some 0
  else
    let m := match exponent with
      | .ofNat e => nearest (digits * Nat.pow 10 e) 1
      | .negSucc k => nearest digits (Nat.pow 10 (k + 1))
    if m < infinite then some m else none

end Binary64

end ForgeRelay
