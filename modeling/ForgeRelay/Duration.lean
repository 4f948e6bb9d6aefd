import ForgeRelay.Text.Blank

/-!
# Durations

A duration is a number of nanoseconds.  `Duration.parse?` reads a bare number of seconds, or one or
more numbers with a unit each (`ms`, `s`, `m`, `h`) that are added up: `500ms`, `1h30m`.  Numbers,
their seconds and the sum must stay below 2^64 seconds.  `Duration.text` shows a duration in its
largest unit, `Duration.millisText` in milliseconds.
-/

namespace ForgeRelay

structure Duration where
  nanos : Nat
  deriving DecidableEq, Repr, Inhabited

namespace Duration

def zero : Duration := ⟨0⟩
def ofSecs (n : Nat) : Duration := ⟨n * 1000000000⟩
def ofMillis (n : Nat) : Duration := ⟨n * 1000000⟩
def secs (d : Duration) : Nat := d.nanos / 1000000000
def millis (d : Duration) : Nat := d.nanos / 1000000

/-- numbers and sums of seconds stay below this -/
def limit : Nat := 0x10000000000000000

def add? (a b : Duration) : Option Duration :=
  let sum : Duration := ⟨a.nanos + b.nanos⟩
  if sum.secs < limit then some sum else none

/-! ## reading -/

def isDigit (c : Char) : Bool := '0' ≤ c && c ≤ '9'

def digitsValue (ds : List Char) : Nat := ds.foldl (fun n c => 10 * n + (c.toNat - 48)) 0

/-- the value of one or more digits, if it is below the limit -/
def number? (ds : List Char) : Option Nat :=
  if ds.isEmpty || !ds.all isDigit then none
  else if digitsValue ds < limit then some (digitsValue ds) else none

/-- a number of seconds, with or without a plus sign -/
def bareSecs? : List Char → Option Duration
  | '+' :: cs => (number? cs).map ofSecs
  | cs => (number? cs).map ofSecs

/-- a number in a unit -/
def scaled? (n : Nat) : List Char → Option Duration
  | ['m', 's'] => some (ofMillis n)
  | ['s'] => some (ofSecs n)
  | ['m'] => if n * 60 < limit then some (ofSecs (n * 60)) else none
  | ['h'] => if n * 3600 < limit then some (ofSecs (n * 3600)) else none
  | _ => none

/-- the sum of `total` and the numbers with units in a text; each takes at least one character,
so the length of the text is enough as `fuel` -/
def sum? : Nat → Duration → List Char → Option Duration
  | _, total, [] => some total
  | 0, _, _ :: _ => none
  | fuel + 1, total, c :: cs => do
    let digits := (c :: cs).takeWhile isDigit
    let rest := (c :: cs).dropWhile isDigit
    let n ← number? digits
    let part ← scaled? n (rest.takeWhile (!isDigit ·))
    let total ← total.add? part
    sum? fuel total (rest.dropWhile (!isDigit ·))

def parse? (s : String) : Option Duration :=
  match trimmed s with
  | [] => none
  | cs => (bareSecs? cs).or (sum? cs.length zero cs)

/-! ## writing -/

/-- `part / 10^width` after the point, without zeros at the end -/
def fraction (part width : Nat) : List Char :=
  let digits := Nat.toDigits 10 part
  let padded := List.replicate (width - digits.length) '0' ++ digits
  let kept := (padded.reverse.dropWhile (· = '0')).reverse
  if kept.isEmpty then [] else '.' :: kept

def inUnit (nanos width : Nat) (unit : List Char) : String :=
  let whole := Nat.toDigits 10 (nanos / Nat.pow 10 width)
  String.ofList (whole ++ fraction (nanos % Nat.pow 10 width) width ++ unit)

def text (d : Duration) : String :=
  if 1000000000 ≤ d.nanos then inUnit d.nanos 9 ['s']
  else if 1000000 ≤ d.nanos then inUnit d.nanos 6 ['m', 's']
  else if 1000 ≤ d.nanos then inUnit d.nanos 3 ['µ', 's']
  else inUnit d.nanos 0 ['n', 's']

def millisText (d : Duration) : String :=
  String.ofList (Nat.toDigits 10 d.millis ++ ['m', 's'])

end Duration

end ForgeRelay
