import ForgeRelay.Bytes
import ForgeRelay.Json.Basic

/-!
# Numerals in JSON

A numeral is split into its sign, its digits before and after the point, and its exponent.  Its
digits are taken into a 64-bit number as long as they fit; digits before the point that do not fit
count as a power of ten, digits after it are dropped.  `Numeral.number?` is an integer if the
numeral has neither point nor exponent and lies in the exact range, else a double; -0 is a double.
-/

namespace ForgeRelay.Json

structure Numeral where
  negative : Bool
  whole : Bytes
  fraction : Bytes
  exponent : Option Int
  deriving DecidableEq, Repr

/-! ## digits -/

def digitValue (b : UInt8) : Nat := b.toNat - 0x30

/-- the number that digits write -/
def digitsValue (ds : Bytes) : Nat := ds.foldl (fun n d => 10 * n + digitValue d) 0

/-- digits are taken while the number stays below 2^64; the second part is what is left -/
def absorb : Nat → Bytes → Nat × Bytes
  | n, [] => (n, [])
  | n, d :: ds =>
    if n * 10 + digitValue d < 0x10000000000000000 then absorb (n * 10 + digitValue d) ds
    else (n, d :: ds)

/-! ## value -/

def double? (negative : Bool) (digits : Nat) (exponent : Int) : Option Number :=
  (Binary64.scaled? digits exponent).map fun m => .double ⟨negative, m⟩

def integer (negative : Bool) (n : Nat) : Number :=
  if !negative then .int n
  else if n = 0 ∨ 0x8000000000000000 < n then .double ⟨true, Binary64.ofNat n⟩
  else .int (-n)

/-- the number of a numeral; nothing if it is too large for a double -/
def Numeral.number? (x : Numeral) : Option Number :=
  let (n, left) := absorb 0 x.whole
  if x.fraction.isEmpty && x.exponent.isNone then
    if left.isEmpty then some (integer x.negative n) else double? x.negative n left.length
  else
    let (n, dropped) := absorb n x.fraction
    let taken := x.fraction.length - dropped.length
    double? x.negative n (left.length - taken + x.exponent.getD 0)

/-! ## reading -/

def exponent? (bs : Bytes) : Option (Int × Bytes) :=
  let (negative, bs) := match bs with
    | Ascii.plus :: bs => (false, bs)
    | Ascii.minus :: bs => (true, bs)
    | bs => (false, bs)
  let ds := bs.takeWhile Ascii.isDigit
  if ds.isEmpty then none
  else
    let n : Int := digitsValue ds
    some (if negative then -n else n, bs.dropWhile Ascii.isDigit)

/-- the part of a numeral after its digits before the point -/
def numeralTail? (negative : Bool) (whole bs : Bytes) : Option (Numeral × Bytes) := do
  let (fraction, bs) ← match bs with
    | Ascii.dot :: bs =>
      let ds := bs.takeWhile Ascii.isDigit
      if ds.isEmpty then none else some (ds, bs.dropWhile Ascii.isDigit)
    | bs => some ([], bs)
  match bs with
  | Ascii.e :: bs | Ascii.upperE :: bs =>
    let (e, bs) ← exponent? bs
    return (⟨negative, whole, fraction, some e⟩, bs)
  | bs => return (⟨negative, whole, fraction, none⟩, bs)

/-- a numeral after its sign -/
def unsigned? (negative : Bool) (bs : Bytes) : Option (Numeral × Bytes) :=
  match bs.takeWhile Ascii.isDigit with
  | [] => none
  | Ascii.zero :: _ :: _ => none
  | whole => numeralTail? negative whole (bs.dropWhile Ascii.isDigit)

def numeral? : Bytes → Option (Numeral × Bytes)
  | Ascii.minus :: bs => unsigned? true bs
  | bs => unsigned? false bs

end ForgeRelay.Json
