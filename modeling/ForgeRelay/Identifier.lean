import ForgeRelay.Text.LowerCase
import ForgeRelay.Text.Utf8

/-!
# Identifiers

Repository and collection names become identifiers that the hosting platform accepts.  There are
two styles: a domain name uses lower case letters, digits, dots and hyphens, never two dots in a
row, and at most 253 octets; a label name also uses capitals and underscores, and at most 63.
Both begin and end with a letter or digit.  `Style.canonical` takes any text to an identifier of
the style, and only the empty text to the empty one.

It works on octets: `guardStart` puts a zero before a first octet that is no letter or digit,
`substitute` writes a dot for every octet outside the alphabet, `collapse` joins runs of dots,
and `guardEnd` closes a cut text that ends in another character with a zero.
-/

namespace ForgeRelay.Identifier

inductive Style where
  | domain
  | label
  deriving DecidableEq, Repr

namespace Style

def maxLength : Style → Nat
  | .domain => 253
  | .label => 63

def isAlphanumeric : Style → UInt8 → Bool
  | .domain, b => Ascii.isLower b || Ascii.isDigit b
  | .label, b => Ascii.isAlphanumeric b

def admits (style : Style) (b : UInt8) : Bool :=
  b = Ascii.dot || b = Ascii.minus || style.isAlphanumeric b || (style = .label && b = 0x5f)

/-! ## the steps -/

/-- the octets that a text brings to its identifier -/
def source : Style → String → Bytes
  | .domain, s => Utf8.encode (String.ofList (lowerCase s.toList))
  | .label, s => Utf8.encode s

def guardStart (style : Style) : Bytes → Bytes
  | [] => []
  | b :: bs => if style.isAlphanumeric b then b :: bs else Ascii.zero :: b :: bs

def substitute (style : Style) (bs : Bytes) : Bytes :=
  bs.map fun b => if style.admits b then b else Ascii.dot

/-- `previous` is the octet written last -/
def collapseAfter : UInt8 → Bytes → Bytes
  | _, [] => []
  | previous, b :: bs =>
    if b = Ascii.dot ∧ previous = Ascii.dot then collapseAfter previous bs
    else b :: collapseAfter b bs

def collapse : Bytes → Bytes
  | [] => []
  | b :: bs => b :: collapseAfter b bs

def guardEnd (style : Style) (bs : Bytes) : Bytes :=
  match bs.getLast? with
  | none => []
  | some b =>
    if style.isAlphanumeric b then bs
    else if bs.length < style.maxLength - 1 then bs ++ [Ascii.zero]
    else bs.take (bs.length - 2) ++ [Ascii.zero]

/-- runs of dots are joined in domain names only -/
def tidy : Style → Bytes → Bytes
  | .domain, bs => collapse bs
  | .label, bs => bs

def spell (style : Style) (bs : Bytes) : Bytes :=
  style.guardEnd ((style.tidy (style.substitute (style.guardStart bs))).take style.maxLength)

/-- the identifier of a text; what is spelled is ASCII, so that it always is a text -/
def canonical (style : Style) (s : String) : String :=
  (Utf8.decode? (style.spell (style.source s))).getD ""

end Style

def domainName (s : String) : String := Style.domain.canonical s
def labelName (s : String) : String := Style.label.canonical s

/-! ## labels with a domain -/

/-- the label of a text that leaves nothing to name it by -/
def noLabel : String := "nolabel"

/-- the text before the first slash and the text after it; all is after it if there is none -/
def splitDomain (s : String) : String × String :=
  let cs := s.toList
  match cs.dropWhile (· ≠ '/') with
  | [] => ("", s)
  | _ :: name => (String.ofList (cs.takeWhile (· ≠ '/')), String.ofList name)

/-- a domain name and a label name with a slash between them, or the one that is there -/
def label (s : String) : String :=
  let domain := domainName (splitDomain s).1
  let name := labelName (splitDomain s).2
  if domain.isEmpty && name.isEmpty then noLabel
  else if domain.isEmpty then name
  else if name.isEmpty then domain
  else domain ++ "/" ++ name

end ForgeRelay.Identifier
