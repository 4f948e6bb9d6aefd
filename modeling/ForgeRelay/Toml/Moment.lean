import ForgeRelay.Toml.Reader

/-!
# Dates and times

A `Moment` is a date, a time of day or both, and then perhaps a distance from UTC.  It is written in
one way (`Moment.text`) and read in two: `Moment.read?` takes one from a document, `Moment.ofText?`
reads a whole text and is more generous with hours and distances.
-/

namespace ForgeRelay.Toml

structure Date where
  year : Nat
  month : Nat
  day : Nat
  deriving DecidableEq, Repr

structure TimeOfDay where
  hour : Nat
  minute : Nat
  second : Nat
  nanos : Nat
  deriving DecidableEq, Repr

inductive Offset where
  | utc
  | minutes (n : Int)
  deriving DecidableEq, Repr

structure Moment where
  date : Option Date
  time : Option TimeOfDay
  offset : Option Offset
  deriving DecidableEq, Repr

/-! ## writing -/

def padded (width n : Nat) : List Char :=
  let ds := Nat.toDigits 10 n
  List.replicate (width - ds.length) '0' ++ ds

def Date.text (d : Date) : List Char :=
  padded 4 d.year ++ '-' :: padded 2 d.month ++ '-' :: padded 2 d.day

/-- a fraction of a second has nine digits, of which zeros at the end are left out -/
def fractionText (nanos : Nat) : List Char :=
  if nanos = 0 then []
  else '.' :: ((padded 9 nanos).reverse.dropWhile (· = '0')).reverse

def TimeOfDay.text (t : TimeOfDay) : List Char :=
  padded 2 t.hour ++ ':' :: padded 2 t.minute ++ ':' :: padded 2 t.second ++ fractionText t.nanos

def Offset.text : Offset → List Char
  | .utc => ['Z']
  | .minutes n =>
    (if n < 0 then '-' else '+') :: padded 2 (n.natAbs / 60) ++ ':' :: padded 2 (n.natAbs % 60)

/-- a `T` stands between a date and a time -/
def Moment.text (m : Moment) : String :=
  let date := (m.date.map Date.text).getD []
  let time := (m.time.map TimeOfDay.text).getD []
  let mark := if m.date.isSome ∧ m.time.isSome then ['T'] else []
  String.ofList (date ++ mark ++ time ++ (m.offset.map Offset.text).getD [])

/-! ## parts -/

def isLeap (year : Nat) : Bool := year % 4 = 0 && (year % 100 ≠ 0 || year % 400 = 0)

def daysIn (year month : Nat) : Nat :=
  if month = 2 then (if isLeap year then 29 else 28)
  else if month = 4 ∨ month = 6 ∨ month = 9 ∨ month = 11 then 30
  else 31

def date? : Reader Date := fun cs => do
  let (year, cs) ← fixed? 4 cs
  let cs ← expect? '-' cs
  let (month, cs) ← fixed? 2 cs
  let cs ← expect? '-' cs
  let (day, cs) ← fixed? 2 cs
  if month < 1 || 12 < month || day < 1 || daysIn year month < day then none
  return (⟨year, month, day⟩, cs)

/-- the digits after the point of a second, of which nine count -/
def nanos? : Reader Nat
  | '.' :: cs =>
    let ds := cs.takeWhile isDigit
    let kept := ds.take 9
    if ds.isEmpty then none
    else some (digitsValue kept * Nat.pow 10 (9 - kept.length), cs.dropWhile isDigit)
  | cs => some (0, cs)

/-- a second may be a leap second -/
def time? (lastHour : Nat) : Reader TimeOfDay := fun cs => do
  let (hour, cs) ← fixed? 2 cs
  let cs ← expect? ':' cs
  let (minute, cs) ← fixed? 2 cs
  let cs ← expect? ':' cs
  let (second, cs) ← fixed? 2 cs
  if lastHour < hour || 59 < minute || 60 < second then none
  let (nanos, cs) ← nanos? cs
  return (⟨hour, minute, second, nanos⟩, cs)

/-- a distance, if one is written here; `fits` says which hours and minutes it may have -/
def offset? (fits : Nat → Nat → Bool) : Reader (Option Offset)
  | [] => some (none, [])
  | c :: cs =>
    if c = 'Z' ∨ c = 'z' then some (some .utc, cs)
    else if c = '+' ∨ c = '-' then do
      let (hours, cs) ← fixed? 2 cs
      let cs ← expect? ':' cs
      let (minutes, cs) ← fixed? 2 cs
      if !fits hours minutes then none
      let n : Int := 60 * hours + minutes
      return (some (.minutes (if c = '-' then -n else n)), cs)
    else some (none, c :: cs)

def isTimeMark (c : Char) : Bool := c = 'T' || c = 't' || c = ' '

/-! ## moments -/

/-- whether a time begins here: two digits and a colon -/
def startsTime (cs : List Char) : Bool :=
  match cs with
  | a :: b :: ':' :: _ => isDigit a && isDigit b
  | _ => false

/-- a date, a date and a time, or a time; only a date with a time has a distance from UTC -/
def Moment.read? : Reader Moment := fun cs =>
  if startsTime cs then (time? 23 cs).map fun r => (⟨none, some r.1, none⟩, r.2)
  else do
    let (date, cs) ← date? cs
    match cs with
    | mark :: rest =>
      if isTimeMark mark && startsTime rest then
        let (time, rest) ← time? 23 rest
        let (offset, rest) ← offset? (fun hours minutes => hours ≤ 23 && minutes ≤ 59) rest
        return (⟨some date, some time, offset⟩, rest)
      else return (⟨some date, none, none⟩, cs)
    | [] => return (⟨some date, none, none⟩, [])

/-- a date, and a time after a mark -/
def Moment.dated? : Reader Moment := fun cs => do
  let (date, cs) ← date? cs
  match cs with
  | mark :: rest =>
    if isTimeMark mark then
      let (time, rest) ← time? 24 rest
      let (offset, rest) ← offset? (fun hours minutes => 60 * hours + minutes ≤ 24 * 60) rest
      return (⟨some date, some time, offset⟩, rest)
    else return (⟨some date, none, none⟩, cs)
  | [] => return (⟨some date, none, none⟩, [])

/-- a whole text; here an hour may be 24, and a distance may have more than 59 minutes if it is a
day at most -/
def Moment.ofText? (s : String) : Option Moment := do
  let cs := s.toList
  let (moment, rest) ←
    if cs[2]? = some ':' then (time? 24 cs).map fun r => (⟨none, some r.1, none⟩, r.2)
    else Moment.dated? cs
  if rest.isEmpty then return moment else none

end ForgeRelay.Toml
