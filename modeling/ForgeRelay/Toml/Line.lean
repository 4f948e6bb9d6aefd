import ForgeRelay.Toml.Lexeme
import ForgeRelay.Toml.Tree

/-!
# Lines of TOML

A document is a list of lines: headers of tables, headers of rows, and keys with their values.
`Line.read?` takes a text apart, `Line.run?` builds the table that its lines describe.  Arrays and
inline tables stay within their line; they are nested at most `maxNesting` deep.
-/

namespace ForgeRelay.Toml

/-! ## values -/

/-- a value other than an array or an inline table -/
def scalar? : Reader Value := fun cs =>
  match cs with
  | 't' :: 'r' :: 'u' :: 'e' :: rest => some (.boolean true, rest)
  | 'f' :: 'a' :: 'l' :: 's' :: 'e' :: rest => some (.boolean false, rest)
  | c :: _ =>
    if c = '"' ∨ c = '\'' then (string? cs).map fun r => (.string r.1, r.2)
    else
      let moment? := (Moment.read? cs).map fun r => (.date r.1, r.2)
      moment?.or ((decimal? cs).or ((specialFloat? cs).or (integer? cs)))
  | [] => none

/-- items up to and over the closing bracket; each may be followed by a comma -/
def arrayItems? (item : Reader Value) : Nat → Reader (List Value)
  | 0, _ => none
  | fuel + 1, cs =>
    match skipLines (cs.length + 1) cs with
    | ']' :: cs => some ([], cs)
    | cs => do
      let (v, cs) ← item cs
      match skipLines (cs.length + 1) cs with
      | ',' :: cs =>
        let (vs, cs) ← arrayItems? item fuel cs
        return (v :: vs, cs)
      | ']' :: cs => return ([v], cs)
      | _ => none

/-- a key, an equals sign and a value -/
def assignment? (value : Reader Value) : Reader (List String × Value) := fun cs => do
  let (path, cs) ← key? cs
  let cs ← expect? '=' cs
  let (v, cs) ← value (skipGaps cs)
  return ((path, v), skipGaps cs)

/-- assignments with commas between them, up to and over the closing brace -/
def inlineEntries? (value : Reader Value) : Nat → Reader (List (List String × Value))
  | 0, _ => none
  | fuel + 1, cs => do
    let (entry, cs) ← assignment? value cs
    match cs with
    | ',' :: cs =>
      let (entries, cs) ← inlineEntries? value fuel cs
      return (entry :: entries, cs)
    | '}' :: cs => return ([entry], cs)
    | _ => none

/-- a value whose arrays and inline tables are nested at most `room` deep -/
def value? : Nat → Reader Value
  | 0, cs => scalar? cs
  | room + 1, cs =>
    match cs with
    | '[' :: cs => do
      let (items, cs) ← arrayItems? (value? room) (cs.length + 1) cs
      return (.array items, cs)
    | '{' :: cs =>
      match skipGaps cs with
      | '}' :: cs => some (.table [], cs)
      | cs => do
        let (assignments, cs) ← inlineEntries? (value? room) cs.length cs
        let entries ← Tree.assignAll? assignments []
        return (.table (Tree.finishEntries entries), cs)
    | cs => scalar? cs

def maxNesting : Nat := 79

/-! ## lines -/

inductive Line where
  | header (path : List String)
  | rowHeader (path : List String)
  | assign (path : List String) (v : Value)
  deriving Repr

namespace Line

/-- takes a line from characters that start with neither blanks nor a comment -/
def take? : Reader Line := fun cs =>
  match cs with
  | '[' :: '[' :: cs => do
    let (path, cs) ← key? cs
    let cs ← expect? ']' cs
    let cs ← expect? ']' cs
    return (.rowHeader path, ← endLine? cs)
  | '[' :: cs => do
    let (path, cs) ← key? cs
    let cs ← expect? ']' cs
    return (.header path, ← endLine? cs)
  | cs => do
    let ((path, v), cs) ← assignment? (value? maxNesting) cs
    return (.assign path v, ← endLine? cs)

/-- all lines; each takes a character at least -/
def all? : Nat → List Char → Option (List Line)
  | 0, _ => none
  | fuel + 1, cs =>
    match skipLines (cs.length + 1) cs with
    | [] => some []
    | '#' :: cs => if (cs.dropWhile isPrintable).isEmpty then some [] else none
    | cs => do
      let (line, cs) ← take? cs
      return line :: (← all? fuel cs)

/-- the lines of a text, which may begin with a byte order mark -/
def read? (s : String) : Option (List Line) :=
  match s.toList with
  | '\ufeff' :: cs => all? (cs.length + 1) cs
  | cs => all? (cs.length + 1) cs

/-! ## the table that lines describe -/

/-- adds lines to the entries of a document; `open` is the path of the table they are in -/
def runFrom? : List Line → List String → Tree.Entries → Option Tree.Entries
  | [], _, entries => some entries
  | .header path :: lines, _, entries => do
    let key ← path.getLast?
    runFrom? lines path (← Tree.change? (Tree.openTable? key) path.dropLast entries)
  | .rowHeader path :: lines, _, entries => do
    let key ← path.getLast?
    runFrom? lines path (← Tree.change? (Tree.openRow? key) path.dropLast entries)
  | .assign key v :: lines, path, entries => do
    runFrom? lines path (← Tree.change? (Tree.assign? v true key) path entries)

def run? (lines : List Line) : Option Value := do
  return .table (Tree.finishEntries (← runFrom? lines [] []))

end Line

/-- reads a document as a typed value -/
def decode {α : Type} (decoder : Decoder Value α) (s : String) : Except Mismatch α :=
  match ((Line.read? s).bind Line.run?).bind Value.resolve? with
  | some v => decoder v
  | none => .error .unreadable

end ForgeRelay.Toml
