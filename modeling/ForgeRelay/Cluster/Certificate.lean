import ForgeRelay.Codec.Der

/-!
# Certificates to trust

A certificate is a signed value (X.509): a payload, the algorithm of the signature and the
signature.  `Certificate.isSound` says whether one can be trusted as a root.  Only its frame counts:
names, dates and keys are sequences that are not looked into, and the signature is not checked.  Of
the extensions some are understood; any other must not be critical.
-/

namespace ForgeRelay

structure Certificate where
  /-- what is signed -/
  payload : Bytes
  /-- the algorithm of the signature -/
  algorithm : Bytes
  deriving DecidableEq, Repr

namespace Certificate

/-- the signature fills whole octets: none of its last bits are unused -/
def read? (bs : Bytes) : Option Certificate := do
  let bs ← Der.only? Der.sequence bs
  let (payload, bs) ← Der.read? Der.sequence bs
  let (algorithm, bs) ← Der.read? Der.sequence bs
  let signature ← Der.only? Der.bitString bs
  if signature.head? = some 0 then return ⟨payload, algorithm⟩ else none

/-! ## extensions -/

structure Extension where
  id : Bytes
  critical : Bool
  value : Bytes
  deriving DecidableEq, Repr

namespace Extension

/-- an extension is not critical unless it says so -/
def critical? (bs : Bytes) : Option (Bool × Bytes) :=
  if bs.head? = some Der.boolean then
    match Der.read? Der.boolean bs with
    | some ([0xff], rest) => some (true, rest)
    | some ([0x00], rest) => some (false, rest)
    | _ => none
  else some (false, bs)

def read? (bs : Bytes) : Option Extension := do
  let (id, bs) ← Der.read? Der.objectId bs
  let (critical, bs) ← critical? bs
  return ⟨id, critical, ← Der.only? Der.octetString bs⟩

/-- the identifier of a standard extension -/
def standard (n : UInt8) : Bytes := [0x55, 0x1d, n]

/-- what a key may be used for, which is not a sequence -/
def keyUsage : Bytes := standard 15

/-- the use of the key, other names of the subject, limits of an issuer, permitted names, lists of
what is revoked, and further uses of the key -/
def understood : List Bytes := [keyUsage, standard 17, standard 19, standard 30, standard 31,
  standard 37]

def isSound (e : Extension) : Bool :=
  if e.id = keyUsage then true
  else if e.id ∈ understood then (Der.only? Der.sequence e.value).isSome
  else !e.critical

/-- each extension that is understood comes once at most -/
def areSound (es : List Extension) : Bool :=
  es.all isSound && decide ((es.map id).filter (· ∈ understood)).Nodup

end Extension

def extensions? (bs : Bytes) : Option (List Extension) := do
  let bs ← Der.only? Der.sequence (← Der.only? (Der.numbered 3) bs)
  (← Der.all? Der.sequence bs.length bs).mapM Extension.read?

/-! ## versions -/

/-- the mark of the third version -/
def version3 : Bytes := [0x02, 0x01, 0x02]

/-- a number, the algorithm once more, issuer, validity, subject and key, and perhaps extensions -/
def isVersion3 (c : Certificate) : Bool :=
  let extensions : Option (List Extension) := do
    let (version, bs) ← Der.read? (Der.numbered 0) c.payload
    if version ≠ version3 then none
    let bs ← Der.skip? [Der.integer] bs
    let (algorithm, bs) ← Der.read? Der.sequence bs
    if algorithm ≠ c.algorithm then none
    let bs ← Der.skip? (List.replicate 4 Der.sequence) bs
    if bs.isEmpty then return [] else extensions? bs
  extensions.any Extension.areSound

/-- the same fields without a mark and without extensions -/
def isVersion1 (c : Certificate) : Bool :=
  Der.skip? (Der.integer :: List.replicate 5 Der.sequence) c.payload = some []

/-- whether octets are a certificate that can be trusted as a root -/
def isSound (bs : Bytes) : Bool := (read? bs).any fun c => c.isVersion3 || c.isVersion1

end Certificate

end ForgeRelay
