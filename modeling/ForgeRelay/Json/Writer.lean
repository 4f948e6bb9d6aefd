import ForgeRelay.Decimal.Shortest
import ForgeRelay.Json.Basic
import ForgeRelay.Text.Utf8

/-!
# Writing JSON

`Json.write` writes a value without blanks.  Within strings only the quote, the backslash and the
controls below U+0020 are escaped, so a string can be written octet by octet.
-/

namespace ForgeRelay

namespace Json

/-! ## scalars -/

def hexDigit (n : Nat) : UInt8 := if n < 10 then (0x30 + n).toUInt8 else (0x57 + n).toUInt8

def escapeOctet (b : UInt8) : Bytes :=
  if b = Ascii.quote then [Ascii.backslash, Ascii.quote]
  else if b = Ascii.backslash then [Ascii.backslash, Ascii.backslash]
  else if b = Ascii.backspace then [Ascii.backslash, Ascii.b]
  else if b = Ascii.formFeed then [Ascii.backslash, Ascii.f]
  else if b = Ascii.lineFeed then [Ascii.backslash, Ascii.n]
  else if b = Ascii.carriageReturn then [Ascii.backslash, Ascii.r]
  else if b = Ascii.tab then [Ascii.backslash, Ascii.t]
  else if b < 0x20 then
    [Ascii.backslash, Ascii.u, Ascii.zero, Ascii.zero,
      hexDigit (b.toNat / 16), hexDigit (b.toNat % 16)]
  else [b]

def writeString (s : String) : Bytes :=
  Ascii.quote :: (Utf8.encode s).flatMap escapeOctet ++ [Ascii.quote]

def writeInt (n : Int) : Bytes :=
  match n with
  | .ofNat m => Bytes.ascii (Nat.toDigits 10 m)
  | .negSucc m => Ascii.minus :: Bytes.ascii (Nat.toDigits 10 (m + 1))

def Number.write : Number → Bytes
  | .int n => writeInt n
  | .double x =>
    if x.isFinite then Bytes.ascii (Shortest.text x)
    else [Ascii.n, Ascii.u, Ascii.l, Ascii.l]

/-! ## values -/

mutual
def write : Json → Bytes
  | .null => [Ascii.n, Ascii.u, Ascii.l, Ascii.l]
  | .bool true => [Ascii.t, Ascii.r, Ascii.u, Ascii.e]
  | .bool false => [Ascii.f, Ascii.a, Ascii.l, Ascii.s, Ascii.e]
  | .num n => n.write
  | .str s => writeString s
  | .arr [] => [Ascii.openBracket, Ascii.closeBracket]
  | .arr (j :: js) => Ascii.openBracket :: (write j ++ writeItems js)
  | .obj [] => [Ascii.openBrace, Ascii.closeBrace]
  | .obj ((k, j) :: fs) =>
    Ascii.openBrace :: (writeString k ++ Ascii.colon :: (write j ++ writeFields fs))

/-- the items after the first, with the end of the array -/
def writeItems : List Json → Bytes
  | [] => [Ascii.closeBracket]
  | j :: js => Ascii.comma :: (write j ++ writeItems js)

/-- the fields after the first, with the end of the object -/
def writeFields : List (String × Json) → Bytes
  | [] => [Ascii.closeBrace]
  | (k, j) :: fs =>
    Ascii.comma :: (writeString k ++ Ascii.colon :: (write j ++ writeFields fs))
end

end Json

end ForgeRelay
