import ForgeRelay.Cluster.Certificate
import ForgeRelay.Codec.Base64

/-!
# Certificate bundles

A bundle is a text with blocks between lines that begin and end them; what stands outside of blocks
does not matter.  `Pem.isSound` says that every block is closed, that those with a known label hold
base64, and that every certificate is sound.
-/

namespace ForgeRelay.Pem

/-! ## lines -/

def isLineEnd (b : UInt8) : Bool := b = Ascii.lineFeed || b = Ascii.carriageReturn

/-- the lines of a text, each with its end -/
def lines : Bytes → List Bytes
  | [] => []
  | b :: bs =>
    if isLineEnd b then [b] :: lines bs
    else
      match lines bs with
      | line :: rest => (b :: line) :: rest
      | [] => [[b]]

/-! ## marks -/

def openMark : Bytes := Bytes.ascii "-----BEGIN ".toList
def closeMark (label : Bytes) : Bytes :=
  Bytes.ascii "-----END ".toList ++ label ++ Bytes.ascii "-----".toList

def certificate : Bytes := Bytes.ascii "CERTIFICATE".toList

/-- labels of blocks whose content is read; any other block is passed over -/
def knownLabels : List Bytes :=
  certificate :: (["PUBLIC KEY", "RSA PRIVATE KEY", "PRIVATE KEY", "EC PRIVATE KEY", "X509 CRL",
    "CERTIFICATE REQUEST", "ECHCONFIG"].map fun label => Bytes.ascii label.toList)

/-- the label of a line that opens a block, which ends in five dashes; blanks may stand among and
after them -/
def label? (line : Bytes) : Option Bytes :=
  let isTrailing (b : UInt8) : Bool := b = Ascii.minus || b = Ascii.space || isLineEnd b
  let dashes := (line.reverse.takeWhile isTrailing).reverse.dropWhile (· ≠ Ascii.minus)
  if dashes.count Ascii.minus = 5 then
    some ((line.take (line.length - dashes.length)).drop openMark.length)
  else none

/-! ## blocks -/

/-- a block; while it is open its content is the text of the lines so far -/
structure Block where
  label : Bytes
  content : Bytes
  deriving DecidableEq, Repr

/-- the blocks of lines, their contents read.  A block that opens within another takes its place,
and goes on with the text of it. -/
def blocksFrom? : Option Block → List Bytes → Option (List Block)
  | none, [] => some []
  | some _, [] => none
  | current, line :: rest =>
    if openMark.isPrefixOf line then do
      let label ← label? line
      blocksFrom? (some ⟨label, (current.map Block.content).getD []⟩) rest
    else match current with
      | none => blocksFrom? none rest
      | some b =>
        if !(closeMark b.label).isPrefixOf line then
          blocksFrom? (some { b with content := b.content ++ line }) rest
        else if b.label ∈ knownLabels then do
          let content ← Base64.loose? b.content
          return ⟨b.label, content⟩ :: (← blocksFrom? none rest)
        else blocksFrom? none rest

def blocks? (bundle : Bytes) : Option (List Block) := blocksFrom? none (lines bundle)

/-- a bundle without blocks is sound -/
def isSound (bundle : Bytes) : Bool :=
  (blocks? bundle).any fun blocks =>
    blocks.all fun b => b.label ≠ certificate || Certificate.isSound b.content

end ForgeRelay.Pem
