import ForgeRelay.Bytes
import ForgeRelay.Yaml.ScalarText

/-!
# Tokens of a YAML stream

`Token.scan?` cuts a stream into tokens.  Collections in block style have no brackets: a
`blockSequence` or `blockMapping` token is put in where the indentation grows, and a `blockEnd`
where it shrinks (`Scanner.roll`, `Scanner.unroll`).  A key need not be marked either: the place of
each token that may turn out to be a key is kept (`KeyCandidate`), and when the colon comes the
`key` token is put in there.

Tags are octets, for escapes in them may write any; an octet of zero ends a tag.
-/

namespace ForgeRelay.Yaml

inductive Token where
  | version (major minor : Nat)
  | tagShorthand (handle : String) (start : Bytes)
  | documentStart
  | documentEnd
  | blockSequence
  | blockMapping
  | blockEnd
  | flowSequence
  | flowSequenceEnd
  | flowMapping
  | flowMappingEnd
  | blockEntry
  | flowEntry
  | key
  | value
  | alias (name : String)
  | anchor (name : String)
  | tag (handle : String) (suffix : Bytes)
  | scalar (plain : Bool) (text : String)
  deriving DecidableEq, Repr

/-! ## anchors, tags and directives -/

/-- the name of an anchor or alias, after its mark -/
def anchorName? (c : Cursor) : Option (String × Cursor) :=
  let name := c.rest.takeWhile isWord
  let c := c.advance name.length
  if name.isEmpty then none
  else if isGapOrEnd c.char || "?:,]%@`\x7d".toList.contains c.char then
    some (String.ofList name, c)
  else none

def isUriChar (brackets : Bool) (c : Char) : Bool :=
  isWord c || ";/?:@&=+$.%!~*'()".toList.contains c || (brackets && ",[]".toList.contains c)

/-- an octet written as a percent sign and two digits -/
def percentOctet? (cs : List Char) : Option UInt8 := do
  match cs with
  | '%' :: a :: b :: _ =>
    let a ← hexValue? a
    let b ← hexValue? b
    return (16 * a + b).toUInt8
  | _ => none

/-- the octets of a character that are written by percent signs.  The first says how many there are,
and the others must be octets that continue a character. -/
def percentOctets? (cs : List Char) : Option Bytes := do
  let lead ← percentOctet? cs
  let width :=
    if lead &&& 0x80 = 0 then 1
    else if lead &&& 0xe0 = 0xc0 then 2
    else if lead &&& 0xf0 = 0xe0 then 3
    else if lead &&& 0xf8 = 0xf0 then 4
    else 0
  let octets ← (List.range width).mapM fun i => percentOctet? (cs.drop (3 * i))
  if width = 0 || !(octets.drop 1).all (fun b => b &&& 0xc0 = 0x80) then none else return octets

/-- octets of a tag after `text` -/
def uriOctets? (brackets : Bool) : Nat → Bytes → Cursor → Option (Bytes × Cursor)
  | 0, _, _ => none
  | fuel + 1, text, c =>
    if !isUriChar brackets c.char then some (text, c)
    else if c.char = '%' then do
      let octets ← percentOctets? c.rest
      uriOctets? brackets fuel (text ++ octets) (c.advance (3 * octets.length))
    else uriOctets? brackets fuel (text ++ Bytes.ascii [c.char]) (c.advance 1)

/-- what counts of the octets of a tag -/
def untilZero (text : Bytes) : Bytes := text.takeWhile (· ≠ 0)

/-- at least one octet, even if it does not count -/
def uri? (brackets : Bool) (c : Cursor) : Option (Bytes × Cursor) := do
  let (text, after) ← uriOctets? brackets (c.rest.length + 1) [] c
  if text.isEmpty then none else return (untilZero text, after)

/-- `!`, `!!` or `!word!`; what does not close is the beginning of a tag, and in a directive only
`!` may be that -/
def tagHandle? (directive : Bool) (c : Cursor) : Option (List Char × Cursor) :=
  if c.char ≠ '!' then none
  else
    let c := c.advance 1
    let word := c.rest.takeWhile isWord
    let c := c.advance word.length
    if c.char = '!' then some ('!' :: word ++ ['!'], c.advance 1)
    else if directive && !word.isEmpty then none
    else some ('!' :: word, c)

def tagToken? (c : Cursor) (flow : Bool) : Option (Token × Cursor) := do
  let ends (c : Cursor) : Bool := (flow && c.char = ',') || isGapOrEnd c.char
  if c.ahead 1 = '<' then
    let (suffix, c) ← uri? true (c.advance 2)
    if c.char ≠ '>' || !ends (c.advance 1) then none
    return (.tag "" suffix, c.advance 1)
  else
    let (handle, c) ← tagHandle? false c
    if 1 < handle.length && handle.getLast? = some '!' then
      let (suffix, c) ← uri? false c
      if !ends c then none
      return (.tag (String.ofList handle) suffix, c)
    else
      let (text, c) ← uriOctets? false (c.rest.length + 1) (Bytes.ascii (handle.drop 1)) c
      let suffix := untilZero text
      if !ends c then none
      if suffix.isEmpty then return (.tag "" (Bytes.ascii ['!']), c)
      return (.tag "!" suffix, c)

/-- a number of a version, of at most nine digits -/
def versionNumber? (c : Cursor) : Option (Nat × Cursor) :=
  let ds := c.rest.takeWhile isDigit
  if ds.isEmpty || 9 < ds.length then none
  else some (ds.foldl (fun n d => 10 * n + (d.toNat - 48)) 0, c.advance ds.length)

def directive? (c : Cursor) : Option (Token × Cursor) := do
  let name := (c.rest.drop 1).takeWhile isWord
  let c := c.advance (1 + name.length)
  if name.isEmpty || !isGapOrEnd c.char then none
  let c := c.skip isGap
  if name = "YAML".toList then
    let (major, c) ← versionNumber? c
    if c.char ≠ '.' then none
    let (minor, c) ← versionNumber? (c.advance 1)
    return (.version major minor, ← skipToBreak? c)
  else if name = "TAG".toList then
    let (handle, c) ← tagHandle? true c
    if !isGap c.char then none
    let (start, c) ← uri? true (c.skip isGap)
    if !isGapOrEnd c.char then none
    return (.tagShorthand (String.ofList handle) start, ← skipToBreak? c)
  else none

/-! ## the scanner -/

/-- a token that may turn out to be a key: its number and its place -/
structure KeyCandidate where
  required : Bool
  token : Nat
  index : Nat
  line : Nat
  column : Nat

/-- `indent` is the indentation of the innermost block collection, if there is one, and `outer`
those around it; `candidates` has an entry for each level of flow collections -/
structure Scanner where
  cursor : Cursor
  tokens : Array Token
  indent : Option Nat
  outer : List (Option Nat)
  candidates : List (Option KeyCandidate)
  keyAllowed : Bool

namespace Scanner

def start (cs : List Char) : Scanner :=
  ⟨.start cs, #[], none, [], [none], true⟩

def inFlow (s : Scanner) : Bool := 1 < s.candidates.length

def push (s : Scanner) (t : Token) : Scanner := { s with tokens := s.tokens.push t }

def insert (s : Scanner) (place : Nat) (t : Token) : Scanner :=
  { s with tokens := s.tokens.insertIdxIfInBounds place t }

/-- opens a block collection if `column` lies deeper than the indentation -/
def roll (s : Scanner) (column : Nat) (place : Nat) (t : Token) : Scanner :=
  if s.inFlow then s
  else if s.indent.all (· < column) then
    { s.insert place t with indent := some column, outer := s.indent :: s.outer }
  else s

/-- closes the block collections deeper than `column`; all of them if there is none -/
def unrollTo (column : Option Nat) : List (Option Nat) → Scanner → Scanner
  | [], s => s
  | i :: outer, s =>
    if s.indent.any fun n => column.all (· < n) then
      unrollTo column outer { s.push .blockEnd with indent := i, outer := outer }
    else s

def unroll (s : Scanner) (column : Option Nat) : Scanner :=
  if s.inFlow then s else unrollTo column s.outer s

/-! ### candidates for keys -/

/-- a candidate is stale on a later line or after 1024 octets; one that had to be a key is then an
error -/
def freshen? (s : Scanner) : Option Scanner := do
  let candidates ← s.candidates.mapM fun k =>
    match k with
    | none => some none
    | some k =>
      if k.line < s.cursor.line ∨ k.index + 1024 < s.cursor.index then
        if k.required then none else some none
      else some (some k)
  return { s with candidates := candidates }

/-- gives up the innermost candidate -/
def dropCandidate? (s : Scanner) : Option Scanner :=
  match s.candidates with
  | some k :: rest => if k.required then none else some { s with candidates := none :: rest }
  | _ => some s

/-- notes the next token as a candidate, where a key may begin -/
def noteCandidate? (s : Scanner) : Option Scanner :=
  if !s.keyAllowed then some s
  else do
    let s ← s.dropCandidate?
    let c := s.cursor
    let required := !s.inFlow && s.indent = some c.column
    let k : KeyCandidate := ⟨required, s.tokens.size, c.index, c.line, c.column⟩
    return { s with candidates := some k :: s.candidates.drop 1 }

/-! ### blanks between tokens -/

/-- a byte order mark may begin a line -/
def skipBlanks : Nat → Scanner → Scanner
  | 0, s => s
  | fuel + 1, s =>
    let tabs := s.inFlow || !s.keyAllowed
    let marked := s.cursor.column = 0 && isByteOrderMark s.cursor.char
    let c := if marked then s.cursor.advance 1 else s.cursor
    let c := c.skip fun ch => ch = ' ' || (tabs && ch = '\t')
    let c := if c.char = '#' then c.skip (!isBreakOrEnd ·) else c
    if isBreak c.char then
      skipBlanks fuel { s with cursor := c.skipBreak, keyAllowed := s.keyAllowed || !s.inFlow }
    else { s with cursor := c }

/-! ### one token -/

/-- a token of `n` characters -/
def mark (s : Scanner) (t : Token) (n : Nat) : Scanner :=
  { s.push t with cursor := s.cursor.advance n }

def flowStart? (s : Scanner) (t : Token) : Option Scanner := do
  let s ← s.noteCandidate?
  return { s.mark t 1 with candidates := none :: s.candidates, keyAllowed := true }

def flowEnd? (s : Scanner) (t : Token) : Option Scanner := do
  let s ← s.dropCandidate?
  let candidates := if s.inFlow then s.candidates.drop 1 else s.candidates
  return { s.mark t 1 with candidates := candidates, keyAllowed := false }

def flowEntry? (s : Scanner) : Option Scanner := do
  let s ← s.dropCandidate?
  return { s.mark .flowEntry 1 with keyAllowed := true }

def blockEntry? (s : Scanner) : Option Scanner := do
  if !s.inFlow && !s.keyAllowed then none
  let s := s.roll s.cursor.column s.tokens.size .blockSequence
  let s ← s.dropCandidate?
  return { s.mark .blockEntry 1 with keyAllowed := true }

def key? (s : Scanner) : Option Scanner := do
  if !s.inFlow && !s.keyAllowed then none
  let s := s.roll s.cursor.column s.tokens.size .blockMapping
  let s ← s.dropCandidate?
  return { s.mark .key 1 with keyAllowed := !s.inFlow }

def value? (s : Scanner) : Option Scanner :=
  match s.candidates with
  | some k :: rest =>
    let s := (s.insert k.token .key).roll k.column k.token .blockMapping
    some { s.mark .value 1 with candidates := none :: rest, keyAllowed := false }
  | _ =>
    if !s.inFlow && !s.keyAllowed then none
    else
      let s := s.roll s.cursor.column s.tokens.size .blockMapping
      some { s.mark .value 1 with keyAllowed := !s.inFlow }

def named? (s : Scanner) (t : String → Token) : Option Scanner := do
  let s ← s.noteCandidate?
  let (name, c) ← anchorName? (s.cursor.advance 1)
  return { s.push (t name) with cursor := c, keyAllowed := false }

def tag? (s : Scanner) : Option Scanner := do
  let s ← s.noteCandidate?
  let (t, c) ← tagToken? s.cursor s.inFlow
  return { s.push t with cursor := c, keyAllowed := false }

def block? (s : Scanner) (literal : Bool) : Option Scanner := do
  let s ← s.dropCandidate?
  let (text, c) ← readBlock? literal s.indent s.cursor
  return { s.push (.scalar false (String.ofList text)) with cursor := c, keyAllowed := true }

def quoted? (s : Scanner) (single : Bool) : Option Scanner := do
  let s ← s.noteCandidate?
  let (text, c) ← readQuoted? single s.cursor
  return { s.push (.scalar false (String.ofList text)) with cursor := c, keyAllowed := false }

def plain? (s : Scanner) : Option Scanner := do
  let s ← s.noteCandidate?
  let p ← Plain.read? s.inFlow ((s.indent.map (· + 1)).getD 0) s.cursor
  let s := s.push (.scalar true (String.ofList p.text))
  return { s with cursor := p.after, keyAllowed := p.broken }

def directiveLine? (s : Scanner) : Option Scanner := do
  let s ← (s.unroll none).dropCandidate?
  let (t, c) ← directive? s.cursor
  return { s.push t with cursor := c, keyAllowed := false }

def documentMark? (s : Scanner) (t : Token) : Option Scanner := do
  let s ← (s.unroll none).dropCandidate?
  return { s.mark t 3 with keyAllowed := false }

/-- marks that cannot begin a plain scalar -/
def isIndicator (c : Char) : Bool := "-?:,[]#&*!|>'\"%@`\x7b\x7d".toList.contains c

def startsPlain (s : Scanner) : Bool :=
  let c := s.cursor.char
  let next := s.cursor.ahead 1
  (!isGapOrEnd c && !isIndicator c) || (c = '-' && !isGap next) ||
  (!s.inFlow && (c = '?' || c = ':') && !isGapOrEnd next)

def token? (s : Scanner) : Option Scanner :=
  let c := s.cursor.char
  let spaced := isGapOrEnd (s.cursor.ahead 1)
  if s.cursor.column = 0 ∧ c = '%' then s.directiveLine?
  else if s.cursor.atMarker '-' then s.documentMark? .documentStart
  else if s.cursor.atMarker '.' then s.documentMark? .documentEnd
  else if c = '[' then s.flowStart? .flowSequence
  else if c = '\x7b' then s.flowStart? .flowMapping
  else if c = ']' then s.flowEnd? .flowSequenceEnd
  else if c = '\x7d' then s.flowEnd? .flowMappingEnd
  else if c = ',' then s.flowEntry?
  else if c = '-' ∧ spaced then s.blockEntry?
  else if c = '?' ∧ (s.inFlow ∨ spaced) then s.key?
  else if c = ':' ∧ (s.inFlow ∨ spaced) then s.value?
  else if c = '*' then s.named? .alias
  else if c = '&' then s.named? .anchor
  else if c = '!' then s.tag?
  else if c = '|' ∧ !s.inFlow then s.block? true
  else if c = '>' ∧ !s.inFlow then s.block? false
  else if c = '\'' then s.quoted? true
  else if c = '"' then s.quoted? false
  else if s.startsPlain then s.plain?
  else none

/-- all tokens up to the end; each takes a character at least -/
def run? : Nat → Scanner → Option Scanner
  | 0, _ => none
  | fuel + 1, s => do
    let s := skipBlanks (s.cursor.rest.length + 1) s
    let s ← s.freshen?
    let s := s.unroll (some s.cursor.column)
    if s.cursor.rest.isEmpty then (s.unroll none).dropCandidate?
    else run? fuel (← s.token?)

end Scanner

/-- the tokens of a stream -/
def Token.scan? (cs : List Char) : Option (List Token) := do
  if !cs.all isAllowed then none
  let s ← Scanner.run? (cs.length + 1) (.start cs)
  return s.tokens.toList

end ForgeRelay.Yaml
