import ForgeRelay.Yaml.Cursor

/-!
# The texts of YAML scalars

A plain or quoted scalar is a sequence of runs without blanks, and of gaps: blanks and line ends
between them.  A gap within a line stands for itself; over lines it is folded (`Gap.text`).  A
block scalar is a sequence of lines at one indentation, folded or kept as they are.

The readers give the text and the position after it, or nothing if the scalar is malformed.
-/

namespace ForgeRelay.Yaml

/-! ## gaps -/

/-- blanks and line ends; `blanks` come before the first line end, `broken` says that there is one,
`first` and `more` are the line ends -/
structure Gap where
  blanks : List Char
  broken : Bool
  first : List Char
  more : List Char

def Gap.none : Gap := ⟨[], false, [], []⟩

/-- the gap after an escaped line end, which counts for nothing itself -/
def Gap.escaped : Gap := ⟨[], true, [], []⟩

/-- one line end is a blank, and further ones stay; Unicode separators always stay -/
def Gap.text (g : Gap) : List Char :=
  if !g.broken then g.blanks
  else if g.first = ['\n'] then (if g.more.isEmpty then [' '] else g.more)
  else g.first ++ g.more

/-- passes a gap.  On a new line no tab may stand before column `indent`. -/
def gap? (indent : Nat) : Nat → Gap → Cursor → Option (Gap × Cursor)
  | 0, _, _ => Option.none
  | fuel + 1, g, c =>
    if isGap c.char then
      if g.broken ∧ c.column < indent ∧ c.char = '\t' then Option.none
      else if g.broken then gap? indent fuel g (c.advance 1)
      else gap? indent fuel { g with blanks := g.blanks ++ [c.char] } (c.advance 1)
    else if isBreak c.char then
      let (b, c) := c.lineBreak
      if g.broken then gap? indent fuel { g with more := g.more ++ b } c
      else gap? indent fuel { g with broken := true, first := b } c
    else some (g, c)

/-! ## plain scalars -/

def isFlowMark (c : Char) : Bool :=
  c = ',' || c = '[' || c = ']' || c = '\x7b' || c = '\x7d'

/-- the characters up to a blank or a mark that ends the scalar; within a flow collection a colon
before a mark is malformed -/
def plainRun? (flow : Bool) : List Char → Option (List Char)
  | [] => some []
  | c :: cs =>
    let next := cs.headD '\x00'
    if isGapOrEnd c then some []
    else if flow && c = ':' && (isFlowMark next || next = '?') then Option.none
    else if (c = ':' && isGapOrEnd next) || (flow && isFlowMark c) then some []
    else (plainRun? flow cs).map (c :: ·)

/-- a plain scalar: its text, whether line ends were passed after it, and the position there -/
structure Plain where
  text : List Char
  broken : Bool
  after : Cursor

/-- reads on after `text`; `pending` is the gap before the next run -/
def plain? (flow : Bool) (indent : Nat) : Nat → List Char → Gap → Cursor → Option Plain
  | 0, _, _, _ => Option.none
  | fuel + 1, text, pending, c =>
    if c.atDocumentMarker || c.char = '#' then some ⟨text, pending.broken, c⟩
    else do
      let run ← plainRun? flow c.rest
      let text := if run.isEmpty then text else text ++ pending.text ++ run
      let broken := run.isEmpty && pending.broken
      let c := c.advance run.length
      if !isGap c.char && !isBreak c.char then return ⟨text, broken, c⟩
      let (g, c) ← gap? indent (c.rest.length + 1) Gap.none c
      if !flow && c.column < indent then return ⟨text, g.broken, c⟩
      plain? flow indent fuel text g c

def Plain.read? (flow : Bool) (indent : Nat) (c : Cursor) : Option Plain :=
  plain? flow indent (c.rest.length + 1) [] Gap.none c

/-! ## quoted scalars -/

def hexNumber? (ds : List Char) : Option Nat :=
  ds.foldlM (fun n d => (hexValue? d).map (16 * n + ·)) 0

/-- the scalar written by `width` hexadecimal digits -/
def numbered? (width : Nat) (cs : List Char) : Option Char := do
  let ds := cs.take width
  if ds.length < width then Option.none
  let n ← hexNumber? ds
  if n.isValidChar then some (Char.ofNat n) else Option.none

/-- the character meant by what follows a backslash, and how many characters say so -/
def escape? : List Char → Option (Char × Nat)
  | [] => Option.none
  | e :: cs =>
    if e = '0' then some ('\x00', 1)
    else if e = 'a' then some ('\x07', 1)
    else if e = 'b' then some ('\x08', 1)
    else if e = 't' ∨ e = '\t' then some ('\t', 1)
    else if e = 'n' then some ('\n', 1)
    else if e = 'v' then some ('\x0b', 1)
    else if e = 'f' then some ('\x0c', 1)
    else if e = 'r' then some ('\r', 1)
    else if e = 'e' then some ('\x1b', 1)
    else if e = ' ' ∨ e = '"' ∨ e = '/' ∨ e = '\\' then some (e, 1)
    else if e = 'N' then some ('\u0085', 1)
    else if e = '_' then some ('\u00a0', 1)
    else if e = 'L' then some ('\u2028', 1)
    else if e = 'P' then some ('\u2029', 1)
    else if e = 'x' then (numbered? 2 cs).map (·, 3)
    else if e = 'u' then (numbered? 4 cs).map (·, 5)
    else if e = 'U' then (numbered? 8 cs).map (·, 9)
    else Option.none

/-- the characters up to a blank or the closing quote; the gap is the one before any blanks, which
an escaped line end has begun already -/
def quotedRun? (single : Bool) : Nat → List Char → Cursor → Option (List Char × Gap × Cursor)
  | 0, _, _ => Option.none
  | fuel + 1, text, c =>
    let quote := if single then '\'' else '"'
    if isGapOrEnd c.char then some (text, Gap.none, c)
    else if single && c.char = '\'' && c.ahead 1 = '\'' then
      quotedRun? single fuel (text ++ ['\'']) (c.advance 2)
    else if c.char = quote then some (text, Gap.none, c)
    else if !single && c.char = '\\' && isBreak (c.ahead 1) then
      some (text, Gap.escaped, (c.advance 1).skipBreak)
    else if !single && c.char = '\\' then do
      let (e, width) ← escape? (c.rest.drop 1)
      quotedRun? single fuel (text ++ [e]) (c.advance (1 + width))
    else quotedRun? single fuel (text ++ [c.char]) (c.advance 1)

/-- reads on after `text` -/
def quoted? (single : Bool) : Nat → List Char → Cursor → Option (List Char × Cursor)
  | 0, _, _ => Option.none
  | fuel + 1, text, c => do
    if c.atDocumentMarker || c.rest.isEmpty then Option.none
    let (run, g, c) ← quotedRun? single (c.rest.length + 1) [] c
    let text := text ++ run
    if c.char = (if single then '\'' else '"') then return (text, c.advance 1)
    let (g, c) ← gap? 0 (c.rest.length + 1) g c
    quoted? single fuel (text ++ g.text) c

/-- a quoted scalar from its opening quote on -/
def readQuoted? (single : Bool) (c : Cursor) : Option (List Char × Cursor) :=
  quoted? single (c.rest.length + 1) [] (c.advance 1)

/-! ## block scalars -/

inductive Chomp where
  | strip
  | clip
  | keep
  deriving DecidableEq

/-- the chomping and the indentation announced after `|` or `>` -/
structure BlockHeader where
  chomp : Chomp
  indent : Option Nat

def chomp? (c : Char) : Option Chomp :=
  if c = '+' then some .keep else if c = '-' then some .strip else Option.none

/-- the two indicators come in any order; an indentation of 0 is malformed -/
def blockHeader? (c : Cursor) : Option (BlockHeader × Cursor) :=
  match chomp? c.char with
  | some k =>
    if !isDigit (c.ahead 1) then some (⟨k, Option.none⟩, c.advance 1)
    else if c.ahead 1 = '0' then Option.none
    else some (⟨k, some ((c.ahead 1).toNat - 48)⟩, c.advance 2)
  | Option.none =>
    if !isDigit c.char then some (⟨.clip, Option.none⟩, c)
    else if c.char = '0' then Option.none
    else
      let n := c.char.toNat - 48
      match chomp? (c.ahead 1) with
      | some k => some (⟨k, some n⟩, c.advance 2)
      | Option.none => some (⟨.clip, some n⟩, c.advance 1)

/-- passes blanks and a comment to the end of the line -/
def skipToBreak? (c : Cursor) : Option Cursor :=
  let c := c.skip isGap
  let c := if c.char = '#' then c.skip (!isBreakOrEnd ·) else c
  if isBreakOrEnd c.char then some c.skipBreak else Option.none

/-- passes empty lines and the indentation of the next line; gives the line ends and the greatest
column reached.  `indent` is the indentation, if it is known. -/
def blockBreaks? (indent : Option Nat) : Nat → Nat → List Char → Cursor →
    Option (Nat × List Char × Cursor)
  | 0, _, _, _ => Option.none
  | fuel + 1, widest, breaks, c =>
    let room := match indent with
      | some n => n - c.column
      | Option.none => c.rest.length
    let c := c.advance (min room (c.rest.takeWhile (· = ' ')).length)
    let widest := max widest c.column
    let inIndent := match indent with
      | some n => c.column < n
      | Option.none => true
    if inIndent && c.char = '\t' then Option.none
    else if isBreak c.char then
      let (b, c) := c.lineBreak
      blockBreaks? indent fuel widest (breaks ++ b) c
    else some (widest, breaks, c)

/-- a block scalar under way: its text, the line end after the last line, the empty lines after
that, and whether the last line began with a blank -/
structure Block where
  text : List Char
  lastBreak : List Char
  empties : List Char
  blankStart : Bool

/-- the text up to the next line, which begins with a blank or not -/
def Block.joined (b : Block) (literal blankStart : Bool) : List Char :=
  if !literal && b.lastBreak = ['\n'] && !b.blankStart && !blankStart then
    b.text ++ (if b.empties.isEmpty then [' '] else []) ++ b.empties
  else b.text ++ b.lastBreak ++ b.empties

def blockLines? (literal : Bool) (indent : Nat) : Nat → Block → Cursor → Option (Block × Cursor)
  | 0, _, _ => Option.none
  | fuel + 1, b, c =>
    if c.column ≠ indent ∨ c.rest.isEmpty then some (b, c)
    else do
      let blank := isGap c.char
      let line := c.rest.takeWhile (!isBreakOrEnd ·)
      let (lineEnd, c) := (c.advance line.length).lineBreak
      let (_, empties, c) ← blockBreaks? (some indent) (c.rest.length + 1) 0 [] c
      blockLines? literal indent fuel ⟨b.joined literal blank ++ line, lineEnd, empties, blank⟩ c

def Block.chomped (b : Block) : Chomp → List Char
  | .strip => b.text
  | .clip => b.text ++ b.lastBreak
  | .keep => b.text ++ b.lastBreak ++ b.empties

/-- a block scalar from its indicator on; `parent` is the indentation around it, if any -/
def readBlock? (literal : Bool) (parent : Option Nat) (c : Cursor) :
    Option (List Char × Cursor) := do
  let (header, c) ← blockHeader? (c.advance 1)
  let c ← skipToBreak? c
  let known := header.indent.map (· + parent.getD 0)
  let (widest, breaks, c) ← blockBreaks? known (c.rest.length + 1) 0 [] c
  let least := match parent with
    | some n => n + 1
    | Option.none => 1
  let indent := known.getD (max widest least)
  let (b, c) ← blockLines? literal indent (c.rest.length + 1) ⟨[], [], breaks, false⟩ c
  return (b.chomped header.chomp, c)

end ForgeRelay.Yaml
