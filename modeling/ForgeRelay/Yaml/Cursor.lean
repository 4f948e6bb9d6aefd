/-!
# Positions in a YAML stream

A `Cursor` is what is left of a stream, with the place that has been reached: an index in octets,
a line, and a column in characters.  Line ends are CR LF, CR, LF, NEL and the two Unicode
separators; `Cursor.lineBreak` passes one of them.  Past the end of the stream `Cursor.char` is NUL,
which no stream contains.
-/

namespace ForgeRelay.Yaml

/-! ## characters -/

def isBreak (c : Char) : Bool :=
  c = '\r' || c = '\n' || c = '\u0085' || c = '\u2028' || c = '\u2029'

def isGap (c : Char) : Bool := c = ' ' || c = '\t'
def isEnd (c : Char) : Bool := c = '\x00'
def isByteOrderMark (c : Char) : Bool := c = '\ufeff'
def isBreakOrEnd (c : Char) : Bool := isBreak c || isEnd c
def isGapOrEnd (c : Char) : Bool := isGap c || isBreakOrEnd c

def isDigit (c : Char) : Bool := '0' ≤ c && c ≤ '9'

/-- characters of anchors, tag handles and directive names -/
def isWord (c : Char) : Bool :=
  isDigit c || ('a' ≤ c && c ≤ 'z') || ('A' ≤ c && c ≤ 'Z') || c = '_' || c = '-'

def hexValue? (c : Char) : Option Nat :=
  if isDigit c then some (c.toNat - 0x30)
  else if 'a' ≤ c ∧ c ≤ 'f' then some (c.toNat - 0x57)
  else if 'A' ≤ c ∧ c ≤ 'F' then some (c.toNat - 0x37)
  else none

/-- whether a stream may hold the character -/
def isAllowed (c : Char) : Bool :=
  let n := c.toNat
  n = 0x09 || n = 0x0a || n = 0x0d || (0x20 ≤ n && n ≤ 0x7e) || n = 0x85 ||
  (0xa0 ≤ n && n ≤ 0xfffd) || 0x10000 ≤ n

/-! ## cursors -/

structure Cursor where
  rest : List Char
  /-- in octets of UTF-8 -/
  index : Nat
  line : Nat
  column : Nat

namespace Cursor

def start (cs : List Char) : Cursor := ⟨cs, 0, 0, 0⟩

def char (c : Cursor) : Char := c.rest.headD '\x00'

/-- the character `n` places ahead -/
def ahead (c : Cursor) (n : Nat) : Char := (c.rest.drop n).headD '\x00'

/-- passes `n` characters of a line -/
def advance (c : Cursor) (n : Nat) : Cursor :=
  let octets := (c.rest.take n).foldl (fun k ch => k + ch.utf8Size) 0
  ⟨c.rest.drop n, c.index + octets, c.line, c.column + n⟩

/-- passes the characters of a line that satisfy `p` -/
def skip (p : Char → Bool) (c : Cursor) : Cursor := c.advance (c.rest.takeWhile p).length

/-- passes a line end, if there is one, and gives what it counts for within a scalar -/
def lineBreak (c : Cursor) : List Char × Cursor :=
  match c.rest with
  | '\r' :: '\n' :: cs => (['\n'], ⟨cs, c.index + 2, c.line + 1, 0⟩)
  | b :: cs =>
    let next : Cursor := ⟨cs, c.index + b.utf8Size, c.line + 1, 0⟩
    if b = '\u2028' ∨ b = '\u2029' then ([b], next)
    else if isBreak b then (['\n'], next)
    else ([], c)
  | [] => ([], c)

def skipBreak (c : Cursor) : Cursor := c.lineBreak.2

/-- whether a line begins here with three of `mark` and no more -/
def atMarker (mark : Char) (c : Cursor) : Bool :=
  c.column = 0 && c.char = mark && c.ahead 1 = mark && c.ahead 2 = mark && isGapOrEnd (c.ahead 3)

/-- whether a document starts or ends here -/
def atDocumentMarker (c : Cursor) : Bool := c.atMarker '-' || c.atMarker '.'

end Cursor

end ForgeRelay.Yaml
