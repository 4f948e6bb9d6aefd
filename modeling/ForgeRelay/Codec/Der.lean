import ForgeRelay.Bytes

/-!
# Tagged values

A value is a tag, the length of its content and the content (the distinguished encoding rules of
ASN.1).  A length has one spelling only: one octet below 128, else the octets that it needs, after a
count of them.  Readers take a value from the front.
-/

namespace ForgeRelay.Der

abbrev boolean : UInt8 := 0x01
abbrev integer : UInt8 := 0x02
abbrev bitString : UInt8 := 0x03
abbrev octetString : UInt8 := 0x04
abbrev objectId : UInt8 := 0x06
abbrev sequence : UInt8 := 0x30

/-- the tag of a field that is told apart by its number -/
abbrev numbered (n : UInt8) : UInt8 := 0xa0 + n

/-- contents are shorter than this -/
def limit : Nat := 0xffff

/-- a length, and what follows it -/
def length? : Bytes → Option (Nat × Bytes)
  | 0x81 :: a :: bs => if a < 0x80 then none else some (a.toNat, bs)
  | 0x82 :: a :: b :: bs =>
    let n := 256 * a.toNat + b.toNat
    if n < 0x100 ∨ limit ≤ n then none else some (n, bs)
  | a :: bs => if a < 0x80 then some (a.toNat, bs) else none
  | [] => none

/-- the content of a value with this tag, and what follows the value -/
def read? (tag : UInt8) : Bytes → Option (Bytes × Bytes)
  | [] => none
  | t :: bs => do
    if t ≠ tag then none
    let (n, bs) ← length? bs
    if bs.length < n then none else return (bs.take n, bs.drop n)

/-- the content of a value that nothing follows -/
def only? (tag : UInt8) (bs : Bytes) : Option Bytes := do
  let (content, rest) ← read? tag bs
  if rest.isEmpty then return content else none

/-- passes values with these tags -/
def skip? (tags : List UInt8) (bs : Bytes) : Option Bytes :=
  tags.foldlM (fun bs tag => (read? tag bs).map Prod.snd) bs

/-- the contents of values that all have this tag; each takes an octet at least -/
def all? (tag : UInt8) : Nat → Bytes → Option (List Bytes)
  | _, [] => some []
  | 0, _ => none
  | fuel + 1, bs => do
    let (content, rest) ← read? tag bs
    return content :: (← all? tag fuel rest)

end ForgeRelay.Der
