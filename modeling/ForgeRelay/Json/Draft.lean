import ForgeRelay.Json.Numeral
import ForgeRelay.Text.Utf8

/-!
# Reading JSON

Reading takes two steps.  `Draft.read?` checks the grammar and gives a draft: fields stand as
written, also two of one name, and a string or number that has a form but no value (octets that
are no UTF-8, half of a surrogate pair, a number too large) is kept without one.  `Draft.json?`
turns a draft into a value; it needs all its values and bounds the nesting.  A reader that passes
over a part of a draft never asks for the values in it.
-/

namespace ForgeRelay.Json

inductive Draft where
  | null
  | bool (b : Bool)
  | num (n : Option Number)
  | str (s : Option String)
  | arr (items : List Draft)
  | obj (fields : List (Option String × Draft))
  deriving Repr, Inhabited

/-- takes a value from the front of octets -/
abbrev Reader (α : Type) := Bytes → Option (α × Bytes)

def isSpace (b : UInt8) : Bool :=
  b = Ascii.space || b = Ascii.tab || b = Ascii.lineFeed || b = Ascii.carriageReturn

def skipSpace (bs : Bytes) : Bytes := bs.dropWhile isSpace

/-! ## strings -/

/-- a part of a string: an octet, or a 16-bit unit written by its number -/
inductive Piece where
  | octet (b : UInt8)
  | unit (u : Nat)
  deriving DecidableEq, Repr

/-- the octet meant by a backslash and a letter -/
def escaped? (b : UInt8) : Option UInt8 :=
  if b = Ascii.quote ∨ b = Ascii.backslash ∨ b = Ascii.slash then some b
  else if b = Ascii.b then some Ascii.backspace
  else if b = Ascii.f then some Ascii.formFeed
  else if b = Ascii.n then some Ascii.lineFeed
  else if b = Ascii.r then some Ascii.carriageReturn
  else if b = Ascii.t then some Ascii.tab
  else none

def unit? (a b c d : UInt8) : Option Nat := do
  let a ← Ascii.hexValue? a
  let b ← Ascii.hexValue? b
  let c ← Ascii.hexValue? c
  let d ← Ascii.hexValue? d
  return ((a * 16 + b) * 16 + c) * 16 + d

/-- the parts of a string, up to and over its closing quote -/
def pieces? : Reader (List Piece)
  | [] => none
  | Ascii.quote :: rest => some ([], rest)
  | Ascii.backslash :: Ascii.u :: a :: b :: c :: d :: rest => do
    let u ← unit? a b c d
    let (ps, rest) ← pieces? rest
    return (.unit u :: ps, rest)
  | Ascii.backslash :: e :: rest => do
    let b ← escaped? e
    let (ps, rest) ← pieces? rest
    return (.octet b :: ps, rest)
  | b :: rest =>
    if b < 0x20 then none
    else do
      let (ps, rest) ← pieces? rest
      return (.octet b :: ps, rest)

def isHigh (u : Nat) : Bool := 0xd800 ≤ u && u < 0xdc00
def isLow (u : Nat) : Bool := 0xdc00 ≤ u && u < 0xe000

def scalarOctets (n : Nat) : Bytes := Utf8.encode (String.singleton (Char.ofNat n))

/-- the octets of a string; two halves of a pair make one scalar, and half a pair makes none -/
def joinPieces? : List Piece → Option Bytes
  | [] => some []
  | .octet b :: ps => (joinPieces? ps).map (b :: ·)
  | .unit u :: ps =>
    if isHigh u then
      match ps with
      | .unit v :: ps =>
        if isLow v then
          (joinPieces? ps).map (scalarOctets (0x10000 + (u - 0xd800) * 0x400 + (v - 0xdc00)) ++ ·)
        else none
      | _ => none
    else if isLow u then none
    else (joinPieces? ps).map (scalarOctets u ++ ·)

/-- a string after its opening quote -/
def stringBody? : Reader (Option String) := fun bs => do
  let (ps, rest) ← pieces? bs
  return ((joinPieces? ps).bind Utf8.decode?, rest)

/-! ## lists and fields -/

/-- items with commas between them, up to and over `close`; `fuel` bounds their number -/
def commaList? {α : Type} (close : UInt8) (item : Reader α) : Nat → Reader (List α)
  | 0, _ => none
  | fuel + 1, bs => do
    let (a, bs) ← item bs
    match skipSpace bs with
    | [] => none
    | b :: bs =>
      if b = close then return ([a], bs)
      else if b = Ascii.comma then
        let (as, bs) ← commaList? close item fuel bs
        return (a :: as, bs)
      else none

def field? {α : Type} (value : Reader α) : Reader (Option String × α) := fun bs =>
  match skipSpace bs with
  | Ascii.quote :: bs => do
    let (key, bs) ← stringBody? bs
    match skipSpace bs with
    | Ascii.colon :: bs =>
      let (v, bs) ← value bs
      return ((key, v), bs)
    | _ => none
  | _ => none

/-! ## values -/

namespace Draft

/-- `fuel` bounds the nesting -/
def value? : Nat → Reader Draft
  | 0, _ => none
  | fuel + 1, bs =>
    match skipSpace bs with
    | Ascii.openBrace :: bs =>
      match skipSpace bs with
      | Ascii.closeBrace :: bs => some (.obj [], bs)
      | bs => do
        let (fields, bs) ← commaList? Ascii.closeBrace (field? (value? fuel)) bs.length bs
        return (.obj fields, bs)
    | Ascii.openBracket :: bs =>
      match skipSpace bs with
      | Ascii.closeBracket :: bs => some (.arr [], bs)
      | bs => do
        let (items, bs) ← commaList? Ascii.closeBracket (value? fuel) bs.length bs
        return (.arr items, bs)
    | Ascii.quote :: bs => do
      let (s, bs) ← stringBody? bs
      return (.str s, bs)
    | Ascii.n :: Ascii.u :: Ascii.l :: Ascii.l :: bs => some (.null, bs)
    | Ascii.t :: Ascii.r :: Ascii.u :: Ascii.e :: bs => some (.bool true, bs)
    | Ascii.f :: Ascii.a :: Ascii.l :: Ascii.s :: Ascii.e :: bs => some (.bool false, bs)
    | bs => do
      let (x, bs) ← numeral? bs
      return (.num x.number?, bs)

/-- the draft of a whole text -/
def read? (bs : Bytes) : Option Draft := do
  let (d, rest) ← value? (bs.length + 1) bs
  if (skipSpace rest).isEmpty then some d else none

/-! ## drafts as values -/

mutual
/-- the value of a draft nested at most `room` deep -/
def json? (room : Nat) : Draft → Option Json
  | .null => some .null
  | .bool b => some (.bool b)
  | .num n => n.map .num
  | .str s => s.map .str
  | .arr items => if room = 0 then none else (items? (room - 1) items).map .arr
  | .obj fields => if room = 0 then none else (fields? (room - 1) fields).map Json.ofFields

def items? (room : Nat) : List Draft → Option (List Json)
  | [] => some []
  | d :: ds =>
    match json? room d, items? room ds with
    | some j, some js => some (j :: js)
    | _, _ => none

def fields? (room : Nat) : List (Option String × Draft) → Option (List (String × Json))
  | [] => some []
  | (key, d) :: ds =>
    match key, json? room d, fields? room ds with
    | some k, some j, some fs => some ((k, j) :: fs)
    | _, _, _ => none
end

end Draft

/-- how deeply a text may be nested -/
def maxDepth : Nat := 127

/-- the value of a whole text -/
def read? (bs : Bytes) : Option Json := do
  (← Draft.read? bs).json? maxDepth

end ForgeRelay.Json
