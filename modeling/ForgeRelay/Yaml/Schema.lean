import ForgeRelay.Decimal.Binary64
import ForgeRelay.Text.Utf8

/-!
# What plain scalars mean

A plain scalar is null, a boolean, an integer, a double or else a text (the core schema of YAML
1.2).  Integers may be written in base 16, 8 or 2 after `0x`, `0o` or `0b`; digits after a leading
zero are a text.  Doubles must be finite, unless written as `.inf` or `.nan`.
-/

namespace ForgeRelay.Yaml

inductive Scalar where
  | null
  | bool (b : Bool)
  | int (n : Int)
  /-- a double, or nothing for infinity and NaN -/
  | double (x : Option Binary64)
  | text (s : String)
  deriving DecidableEq, Repr

def isNull (s : String) : Bool := s = "null" || s = "Null" || s = "NULL" || s = "~"

def bool? (s : String) : Option Bool :=
  if s = "true" ∨ s = "True" ∨ s = "TRUE" then some true
  else if s = "false" ∨ s = "False" ∨ s = "FALSE" then some false
  else none

/-! ## integers -/

def digitValue? (base : Nat) (c : Char) : Option Nat :=
  let v? :=
    if '0' ≤ c ∧ c ≤ '9' then some (c.toNat - 0x30)
    else if 'a' ≤ c ∧ c ≤ 'z' then some (c.toNat - 0x57)
    else if 'A' ≤ c ∧ c ≤ 'Z' then some (c.toNat - 0x37)
    else none
  v?.filter (· < base)

/-- one or more digits of a base -/
def digits? (base : Nat) (cs : List Char) : Option Nat :=
  if cs.isEmpty then none
  else cs.foldlM (fun n c => (digitValue? base c).map (base * n + ·)) 0

/-- digits of a base of their own, after the mark of it -/
def basedDigits? : List Char → Option Nat
  | '0' :: 'x' :: cs => digits? 16 cs
  | '0' :: 'o' :: cs => digits? 8 cs
  | '0' :: 'b' :: cs => digits? 2 cs
  | _ => none

def unsigned : List Char → List Char
  | '-' :: cs | '+' :: cs => cs
  | cs => cs

/-- digits that a leading zero keeps from being a number -/
def isZeroLed (cs : List Char) : Bool :=
  match unsigned cs with
  | '0' :: d :: ds => (d :: ds).all fun c => '0' ≤ c && c ≤ '9'
  | _ => false

/-- integers are kept between -2^127 and 2^128 - 1 -/
def int? (cs : List Char) : Option Int :=
  let magnitude? (cs : List Char) : Option Nat :=
    (basedDigits? cs).or (digits? 10 cs)
  if isZeroLed cs then none
  else match cs with
    | '-' :: cs => ((magnitude? cs).filter (· ≤ 0x80000000000000000000000000000000)).map fun n => -(n : Int)
    | '+' :: cs | cs => ((magnitude? cs).filter (· < 0x100000000000000000000000000000000)).map Int.ofNat

/-! ## doubles -/

/-- digits, perhaps with a point, and perhaps an exponent; a digit must stand before or after the
point -/
def decimal? (cs : List Char) : Option Nat :=
  let isDigit (c : Char) : Bool := '0' ≤ c && c ≤ '9'
  let value (ds : List Char) : Nat := ds.foldl (fun n d => 10 * n + (d.toNat - 48)) 0
  let whole := cs.takeWhile isDigit
  let rest := cs.dropWhile isDigit
  let (fraction, rest) := match rest with
    | '.' :: rest => (rest.takeWhile isDigit, rest.dropWhile isDigit)
    | rest => ([], rest)
  let exponent? : Option Int := match rest with
    | [] => some 0
    | e :: rest =>
      if e = 'e' ∨ e = 'E' then
        let ds := unsigned rest
        if ds.isEmpty || !ds.all isDigit then none
        else if rest.head? = some '-' then some (-(value ds : Int)) else some (value ds)
      else none
  if whole.isEmpty && fraction.isEmpty then none
  else exponent?.bind fun e => Binary64.rounded? (value (whole ++ fraction)) (e - fraction.length)

def double? (cs : List Char) : Option (Option Binary64) :=
  let s := String.ofList cs
  let infinite (s : String) : Bool := s = ".inf" || s = ".Inf" || s = ".INF"
  if s = ".nan" ∨ s = ".NaN" ∨ s = ".NAN" then some none
  else if infinite s || infinite (String.ofList (unsigned cs)) then some none
  else match cs with
    | '-' :: cs => (decimal? cs).map fun m => some ⟨true, m⟩
    | '+' :: cs | cs => (decimal? cs).map fun m => some ⟨false, m⟩

/-! ## scalars -/

def plainScalar (s : String) : Scalar :=
  let cs := s.toList
  if s.isEmpty || isNull s then .null
  else match bool? s with
    | some b => .bool b
    | none =>
      match int? cs with
      | some n => .int n
      | none =>
        if isZeroLed cs then .text s
        else match double? cs with
          | some x => .double x
          | none => .text s

def standardTag (name : String) : Bytes := Bytes.ascii ("tag:yaml.org,2002:" ++ name).toList

/-- whether a tag begins with an exclamation mark -/
def isMarked (tag : Bytes) : Bool := Bytes.ascii ['!'] <+: tag

/-- whether a tag is one of an application, which no scalar is read under -/
def isLocalTag (tag : Option Bytes) : Bool :=
  tag.any fun t => isMarked t && (Utf8.decode? t).isSome

/-- the meaning of a scalar; nothing if it does not fit its tag -/
def scalar? (tag : Option Bytes) (plain : Bool) (s : String) : Option Scalar :=
  match tag with
  | none => some (if plain then plainScalar s else .text s)
  | some t =>
    if isLocalTag tag then none
    else if t = standardTag "bool" then (bool? s).map .bool
    else if t = standardTag "int" then (int? s.toList).map .int
    else if t = standardTag "float" then (double? s.toList).map .double
    else if t = standardTag "null" then if isNull s then some .null else none
    else some (if plain && isMarked t then plainScalar s else .text s)

end ForgeRelay.Yaml
