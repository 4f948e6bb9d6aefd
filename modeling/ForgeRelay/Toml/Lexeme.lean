import ForgeRelay.Toml.Value

/-!
# Lexemes of TOML

Blanks and comments, the four kinds of strings, keys and numbers.  Dates are in `Moment`.
-/

namespace ForgeRelay.Toml

/-! ## blanks -/

def isGap (c : Char) : Bool := c = ' ' || c = '\t'

def skipGaps (cs : List Char) : List Char := cs.dropWhile isGap

/-- characters of comments: all but controls, among which tab is allowed -/
def isPrintable (c : Char) : Bool := c = '\t' || (' ' ≤ c && c ≤ '~') || '\u0080' ≤ c

def skipComment (cs : List Char) : List Char :=
  match cs with
  | '#' :: cs => cs.dropWhile isPrintable
  | cs => cs

/-- passes a line end -/
def newline? : List Char → Option (List Char)
  | '\n' :: cs | '\r' :: '\n' :: cs => some cs
  | _ => none

/-- passes blanks, comments and line ends -/
def skipLines : Nat → List Char → List Char
  | 0, cs => cs
  | fuel + 1, cs =>
    let cs := skipGaps cs
    match newline? (skipComment cs) with
    | some rest => skipLines fuel rest
    | none => cs

/-- passes blanks and a comment, up to and over the end of the line -/
def endLine? (cs : List Char) : Option (List Char) :=
  match skipComment (skipGaps cs) with
  | [] => some []
  | cs => newline? cs

/-! ## strings -/

def hexValue? (c : Char) : Option Nat :=
  if '0' ≤ c ∧ c ≤ '9' then some (c.toNat - 0x30)
  else if 'a' ≤ c ∧ c ≤ 'f' then some (c.toNat - 0x57)
  else if 'A' ≤ c ∧ c ≤ 'F' then some (c.toNat - 0x37)
  else none

/-- the scalar written by `width` hexadecimal digits -/
def numbered? (width : Nat) : Reader Char := fun cs => do
  let ds := cs.take width
  if ds.length < width then none
  let n ← ds.foldlM (fun n d => (hexValue? d).map (16 * n + ·)) 0
  if n.isValidChar then return (Char.ofNat n, cs.drop width) else none

/-- what follows a backslash -/
def escape? : Reader Char
  | [] => none
  | e :: cs =>
    if e = 'b' then some ('\x08', cs)
    else if e = 't' then some ('\t', cs)
    else if e = 'n' then some ('\n', cs)
    else if e = 'f' then some ('\x0c', cs)
    else if e = 'r' then some ('\r', cs)
    else if e = '"' ∨ e = '\\' then some (e, cs)
    else if e = 'u' then numbered? 4 cs
    else if e = 'U' then numbered? 8 cs
    else none

def isBasic (c : Char) : Bool := isPrintable c && c ≠ '"' && c ≠ '\\'
def isLiteral (c : Char) : Bool := isPrintable c && c ≠ '\''

/-- a basic string after its opening quote -/
def basic? : Nat → Reader (List Char)
  | 0, _ => none
  | fuel + 1, cs =>
    match cs with
    | '"' :: cs => some ([], cs)
    | '\\' :: cs => do
      let (e, cs) ← escape? cs
      let (text, cs) ← basic? fuel cs
      return (e :: text, cs)
    | c :: cs => do
      if !isBasic c then none
      let (text, cs) ← basic? fuel cs
      return (c :: text, cs)
    | [] => none

/-- passes blanks and line ends after a backslash at the end of a line -/
def skipContinuation : Nat → List Char → List Char
  | 0, cs => cs
  | fuel + 1, cs =>
    let cs := skipGaps cs
    match newline? cs with
    | some rest => skipContinuation fuel rest
    | none => cs

/-- the quotes in front: three end a string, and one or two more belong to it -/
def closing? (quote : Char) (cs : List Char) : Option (List Char × List Char) :=
  let run := (cs.takeWhile (· = quote)).length
  if run < 3 then none
  else
    let inner := min (run - 3) 2
    some (List.replicate inner quote, cs.drop (inner + 3))

/-- a basic string of several lines -/
def basicLines? : Nat → Reader (List Char)
  | 0, _ => none
  | fuel + 1, cs =>
    match closing? '"' cs with
    | some done => some done
    | none =>
      match newline? cs with
      | some cs => do
        let (text, cs) ← basicLines? fuel cs
        return ('\n' :: text, cs)
      | none =>
        match cs with
        | '\\' :: cs =>
          match newline? (skipGaps cs) with
          | some _ => basicLines? fuel (skipContinuation (cs.length + 1) cs)
          | none => do
            let (e, cs) ← escape? cs
            let (text, cs) ← basicLines? fuel cs
            return (e :: text, cs)
        | c :: cs => do
          if !isBasic c && c ≠ '"' then none
          let (text, cs) ← basicLines? fuel cs
          return (c :: text, cs)
        | [] => none

/-- a literal string of several lines -/
def literalLines? : Nat → Reader (List Char)
  | 0, _ => none
  | fuel + 1, cs =>
    match closing? '\'' cs with
    | some done => some done
    | none =>
      match newline? cs with
      | some cs => do
        let (text, cs) ← literalLines? fuel cs
        return ('\n' :: text, cs)
      | none =>
        match cs with
        | c :: cs => do
          if !isPrintable c then none
          let (text, cs) ← literalLines? fuel cs
          return (c :: text, cs)
        | [] => none

/-- a string of several lines drops a line end right after its opening quotes -/
def dropNewline (cs : List Char) : List Char := (newline? cs).getD cs

/-- a string of one line -/
def lineString? : Reader String
  | '"' :: cs => (basic? (cs.length + 1) cs).map fun r => (String.ofList r.1, r.2)
  | '\'' :: cs =>
    match cs.dropWhile isLiteral with
    | '\'' :: rest => some (String.ofList (cs.takeWhile isLiteral), rest)
    | _ => none
  | _ => none

def string? : Reader String
  | '"' :: '"' :: '"' :: cs =>
    (basicLines? (cs.length + 1) (dropNewline cs)).map fun r => (String.ofList r.1, r.2)
  | '\'' :: '\'' :: '\'' :: cs =>
    (literalLines? (cs.length + 1) (dropNewline cs)).map fun r => (String.ofList r.1, r.2)
  | cs => lineString? cs

/-! ## keys -/

def isBare (c : Char) : Bool :=
  ('0' ≤ c && c ≤ '9') || ('a' ≤ c && c ≤ 'z') || ('A' ≤ c && c ≤ 'Z') || c = '_' || c = '-'

def simpleKey? : Reader String := fun cs =>
  match cs.takeWhile isBare with
  | [] => lineString? cs
  | name => some (String.ofList name, cs.dropWhile isBare)

/-- the parts of a dotted key, with blanks around each -/
def dottedKey? : Nat → Reader (List String)
  | 0, _ => none
  | fuel + 1, cs => do
    let (name, cs) ← simpleKey? (skipGaps cs)
    match skipGaps cs with
    | '.' :: cs =>
      let (names, cs) ← dottedKey? fuel cs
      return (name :: names, cs)
    | cs => return ([name], cs)

/-- keys of 80 parts and more are refused -/
def key? : Reader (List String) := dottedKey? 79

/-! ## numbers -/

/-- digits, with single underscores between them -/
def digitRun (p : Char → Bool) : List Char → List Char × List Char
  | '_' :: c :: cs =>
    if p c then (fun r => (c :: r.1, r.2)) (digitRun p cs) else ([], '_' :: c :: cs)
  | c :: cs => if p c then (fun r => (c :: r.1, r.2)) (digitRun p cs) else ([], c :: cs)
  | [] => ([], [])

/-- one or more digits; an underscore is not the first -/
def digits? (p : Char → Bool) : Reader (List Char)
  | c :: cs => if p c then some (digitRun p (c :: cs)) else none
  | [] => none

def numberValue (base : Nat) (ds : List Char) : Nat :=
  ds.foldl (fun n d => base * n + (hexValue? d).getD 0) 0

def sign : List Char → Bool × List Char
  | '-' :: cs => (true, cs)
  | '+' :: cs => (false, cs)
  | cs => (false, cs)

/-- decimal digits without a leading zero -/
def wholeDigits? : Reader (List Char)
  | '0' :: cs => some (['0'], cs)
  | cs => digits? isDigit cs

def basedInteger? (base : Nat) (p : Char → Bool) (cs : List Char) : Option (Value × List Char) := do
  let (ds, cs) ← digits? p cs
  let n := numberValue base ds
  if n < 0x8000000000000000 then return (.integer n, cs) else none

def integer? : Reader Value
  | '0' :: 'x' :: cs => basedInteger? 16 (fun c => (hexValue? c).isSome) cs
  | '0' :: 'o' :: cs => basedInteger? 8 (fun c => '0' ≤ c && c ≤ '7') cs
  | '0' :: 'b' :: cs => basedInteger? 2 (fun c => c = '0' || c = '1') cs
  | cs => do
    let (negative, cs) := sign cs
    let (ds, cs) ← wholeDigits? cs
    let n : Int := digitsValue ds
    if negative then if n ≤ 0x8000000000000000 then return (.integer (-n), cs) else none
    else if n < 0x8000000000000000 then return (.integer n, cs) else none

/-- `e` and a number -/
def exponent? : Reader (Bool × List Char)
  | e :: cs =>
    if e = 'e' ∨ e = 'E' then do
      let (negative, cs) := sign cs
      let (ds, cs) ← digits? isDigit cs
      return ((negative, ds), cs)
    else none
  | [] => none

/-- whether a decimal is too large for a double; half a step above the greatest one rounds up -/
def overflows (digits : List Char) (fraction : Nat) (exponent : Bool × List Char) : Bool :=
  let n := digitsValue digits
  let e : Int := digitsValue exponent.2
  let power : Int := (if exponent.1 then -e else e) - fraction
  (Binary64.rounded? n power).isNone

/-- a number with a point or an exponent; one that is too large is refused, and one that is too far
below zero is minus infinity -/
def decimal? : Reader Value := fun cs => do
  let (negative, cs) := sign cs
  let (whole, cs) ← wholeDigits? cs
  let (fraction, afterPoint) ← match cs with
    | '.' :: cs => digits? isDigit cs
    | cs => some ([], cs)
  let (exponent, rest) ← match afterPoint with
    | [] => some ((false, []), [])
    | c :: rest =>
      if c = 'e' ∨ c = 'E' then exponent? (c :: rest) else some ((false, []), c :: rest)
  if rest.length = cs.length then none
  else if !negative && overflows (whole ++ fraction) fraction.length exponent then none
  else return (.float, rest)

def specialFloat? (cs : List Char) : Option (Value × List Char) :=
  match (sign cs).2 with
  | 'i' :: 'n' :: 'f' :: cs | 'n' :: 'a' :: 'n' :: cs => some (.float, cs)
  | _ => none

end ForgeRelay.Toml
