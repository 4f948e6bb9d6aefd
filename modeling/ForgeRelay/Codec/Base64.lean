import ForgeRelay.Bytes

/-!
# Base64

The standard alphabet with padding.  `Base64.decode` is strict: the padding must be there, it must
be the last thing, and the bits that the last symbol does not need must be zero.  Quads before the
last hold four symbols each (`quads`); the last may end in padding (`lastQuad`).  `Base64.loose?`
asks for none of this, and passes over blanks.
-/

namespace ForgeRelay.Base64

/-- why a text is refused; offsets count octets from the start -/
inductive Fault where
  | symbol (octet : UInt8) (offset : Nat)
  | lastSymbol (octet : UInt8) (offset : Nat)
  | length (symbols : Nat)
  | padding
  deriving DecidableEq, Repr

def Fault.message : Fault → String
  | .symbol octet offset => s!"Invalid symbol {octet}, offset {offset}."
  | .lastSymbol octet offset => s!"Invalid last symbol {octet}, offset {offset}."
  | .length symbols => s!"Invalid input length: {symbols}"
  | .padding => "Invalid padding"

/-! ## the alphabet -/

def symbol (n : Nat) : UInt8 :=
  if n < 26 then (0x41 + n).toUInt8
  else if n < 52 then (0x61 + (n - 26)).toUInt8
  else if n < 62 then (0x30 + (n - 52)).toUInt8
  else if n = 62 then Ascii.plus
  else Ascii.slash

def value? (b : UInt8) : Option Nat :=
  if Ascii.isUpper b then some (b.toNat - 0x41)
  else if Ascii.isLower b then some (b.toNat - 0x61 + 26)
  else if Ascii.isDigit b then some (b.toNat - 0x30 + 52)
  else if b = Ascii.plus then some 62
  else if b = Ascii.slash then some 63
  else none

theorem value?_symbol : ∀ n < 64, value? (symbol n) = some n := by decide

/-! ## writing -/

def encode : Bytes → Bytes
  | [] => []
  | [a] =>
    [symbol (a.toNat / 4), symbol (a.toNat % 4 * 16), Ascii.equals, Ascii.equals]
  | [a, b] =>
    [symbol (a.toNat / 4), symbol (a.toNat % 4 * 16 + b.toNat / 16), symbol (b.toNat % 16 * 4),
      Ascii.equals]
  | a :: b :: c :: rest =>
    symbol (a.toNat / 4) :: symbol (a.toNat % 4 * 16 + b.toNat / 16) ::
      symbol (b.toNat % 16 * 4 + c.toNat / 64) :: symbol (c.toNat % 64) :: encode rest

/-! ## reading -/

/-- the values of the symbols from `offset` on -/
def values (offset : Nat) : Bytes → Except Fault (List Nat)
  | [] => .ok []
  | b :: bs =>
    match value? b with
    | none => .error (.symbol b offset)
    | some v => (values (offset + 1) bs).map (v :: ·)

/-- the three octets of four values -/
def triple (a b c d : Nat) : Bytes :=
  [(a * 4 + b / 16).toUInt8, (b % 16 * 16 + c / 4).toUInt8, (c % 4 * 64 + d).toUInt8]

def joinQuads : List Nat → Bytes
  | a :: b :: c :: d :: rest => triple a b c d ++ joinQuads rest
  | _ => []

def quads (bs : Bytes) : Except Fault Bytes := (values 0 bs).map joinQuads

/-- the octets of a last quad; the bits that it drops are the second component -/
def tailOctets : List Nat → Bytes × Nat
  | [a, b] => ([(a * 4 + b / 16).toUInt8], b % 16)
  | [a, b, c] => ([(a * 4 + b / 16).toUInt8, (b % 16 * 16 + c / 4).toUInt8], c % 4)
  | [a, b, c, d] => (triple a b c d, 0)
  | _ => ([], 0)

def lastQuad (offset : Nat) (bs : Bytes) : Except Fault Bytes := do
  let symbols := bs.takeWhile (· ≠ Ascii.equals)
  let padding := bs.dropWhile (· ≠ Ascii.equals)
  let vs ← values offset symbols
  let here := offset + symbols.length
  if !padding.isEmpty && symbols.length < 2 then throw (.symbol Ascii.equals here)
  if !padding.all (· = Ascii.equals) then throw (.symbol Ascii.equals here)
  if symbols.length < 2 then throw (.length here)
  if bs.length % 4 ≠ 0 then throw .padding
  if (tailOctets vs).2 ≠ 0 then
    throw (.lastSymbol (symbols.getLastD 0) (here - 1))
  return (tailOctets vs).1

/-- a single octet after full quads that is neither symbol nor padding -/
def strayOctet? (bs : Bytes) : Option UInt8 :=
  if bs.length % 4 = 1 then
    bs.getLast?.filter fun b => b ≠ Ascii.equals && (value? b).isNone
  else none

def decode (bs : Bytes) : Except Fault Bytes :=
  match strayOctet? bs with
  | some b => .error (.symbol b (bs.length - 1))
  | none =>
    if bs.isEmpty then .ok [] else do
      let cut := (bs.length - 1) / 4 * 4
      let front ← quads (bs.take cut)
      let back ← lastQuad cut (bs.drop cut)
      return front ++ back

/-! ## loose reading -/

def isBlank (b : UInt8) : Bool := b = Ascii.space || (0x09 ≤ b && b ≤ 0x0d)

/-- Octets in groups of eight symbols, blanks apart.  Padding may fill up the last group or a part
of it, and a group cannot have one symbol more than full quads. -/
def loose? (bs : Bytes) : Option Bytes := do
  let bs := bs.filter (!isBlank ·)
  let symbols := bs.takeWhile (· ≠ Ascii.equals)
  let padding := bs.dropWhile (· ≠ Ascii.equals)
  let vs ← symbols.mapM value?
  let room := (8 - vs.length % 8) % 8
  if !padding.all (· = Ascii.equals) || room < padding.length || vs.length % 4 = 1 then none
  else return joinQuads vs ++ (tailOctets (vs.drop (vs.length / 4 * 4))).1

end ForgeRelay.Base64
