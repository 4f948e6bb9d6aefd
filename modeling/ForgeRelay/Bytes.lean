/-!
# Octets

Message payloads, request bodies and wire texts are lists of octets.  `Ascii` names the octets
that the text formats are written with; `Bytes.ascii` writes a text known to be ASCII.
-/

namespace ForgeRelay

/-- octets in order -/
abbrev Bytes := List UInt8

namespace Ascii

@[match_pattern] abbrev backspace : UInt8 := 0x08
@[match_pattern] abbrev tab : UInt8 := 0x09
@[match_pattern] abbrev lineFeed : UInt8 := 0x0a
@[match_pattern] abbrev formFeed : UInt8 := 0x0c
@[match_pattern] abbrev carriageReturn : UInt8 := 0x0d
@[match_pattern] abbrev space : UInt8 := 0x20
@[match_pattern] abbrev quote : UInt8 := 0x22
@[match_pattern] abbrev plus : UInt8 := 0x2b
@[match_pattern] abbrev comma : UInt8 := 0x2c
@[match_pattern] abbrev minus : UInt8 := 0x2d
@[match_pattern] abbrev dot : UInt8 := 0x2e
@[match_pattern] abbrev slash : UInt8 := 0x2f
@[match_pattern] abbrev zero : UInt8 := 0x30
@[match_pattern] abbrev colon : UInt8 := 0x3a
@[match_pattern] abbrev equals : UInt8 := 0x3d
@[match_pattern] abbrev openBracket : UInt8 := 0x5b
@[match_pattern] abbrev backslash : UInt8 := 0x5c
@[match_pattern] abbrev closeBracket : UInt8 := 0x5d
@[match_pattern] abbrev a : UInt8 := 0x61
@[match_pattern] abbrev b : UInt8 := 0x62
@[match_pattern] abbrev e : UInt8 := 0x65
@[match_pattern] abbrev f : UInt8 := 0x66
@[match_pattern] abbrev l : UInt8 := 0x6c
@[match_pattern] abbrev n : UInt8 := 0x6e
@[match_pattern] abbrev r : UInt8 := 0x72
@[match_pattern] abbrev s : UInt8 := 0x73
@[match_pattern] abbrev t : UInt8 := 0x74
@[match_pattern] abbrev u : UInt8 := 0x75
@[match_pattern] abbrev upperE : UInt8 := 0x45
@[match_pattern] abbrev openBrace : UInt8 := 0x7b
@[match_pattern] abbrev closeBrace : UInt8 := 0x7d

def isDigit (b : UInt8) : Bool := 0x30 ≤ b && b ≤ 0x39
def isUpper (b : UInt8) : Bool := 0x41 ≤ b && b ≤ 0x5a
def isLower (b : UInt8) : Bool := 0x61 ≤ b && b ≤ 0x7a
def isAlphanumeric (b : UInt8) : Bool := isDigit b || isUpper b || isLower b

/-- lower case of an ASCII letter; every other octet is kept -/
def toLower (b : UInt8) : UInt8 := if isUpper b then b + 0x20 else b

/-- value of a hexadecimal digit of either case -/
def hexValue? (b : UInt8) : Option Nat :=
  if isDigit b then some (b.toNat - 0x30)
  else if 0x61 ≤ b && b ≤ 0x66 then some (b.toNat - 0x61 + 10)
  else if 0x41 ≤ b && b ≤ 0x46 then some (b.toNat - 0x41 + 10)
  else none

end Ascii

/-- the octets of characters below 128, one each -/
def Bytes.ascii (cs : List Char) : Bytes := cs.map fun c => c.toNat.toUInt8

theorem Bytes.ascii_cons (c : Char) (cs : List Char) :
    Bytes.ascii (c :: cs) = c.toNat.toUInt8 :: Bytes.ascii cs := rfl

end ForgeRelay
