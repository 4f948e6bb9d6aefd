import ForgeRelay.Toml.Value

/-!
# Tables that grow line by line

A document is a tree of tables.  Each line adds to it: `Tree.openTable?` and `Tree.openRow?` for the
two kinds of headers, `Tree.assign?` for a key and its value.  A table remembers its `Origin`, by
which it is settled what may still be added to it: a table with a header of its own is not opened
again, and dotted keys do not reach into it.
-/

namespace ForgeRelay.Toml

inductive Origin where
  /-- by a header of its own -/
  | headed
  /-- by a header of a table in it -/
  | implied
  /-- by a dotted key -/
  | dotted
  deriving DecidableEq, Repr

inductive Tree where
  | value (v : Value)
  | table (origin : Origin) (entries : List (String × Tree))
  /-- the rows of an array of tables; what is added goes to the last one -/
  | rows (items : List (List (String × Tree)))
  deriving Repr, Inhabited

namespace Tree

abbrev Entries := List (String × Tree)

/-- changes the last row -/
def changeLast? (f : Entries → Option Entries) : List Entries → Option (List Entries)
  | [] => none
  | [row] => (f row).map ([·])
  | row :: rest => (changeLast? f rest).map (row :: ·)

/-! ## headers -/

/-- changes the table at a path; tables on the way that are not there are implied -/
def change? (f : Entries → Option Entries) : List String → Entries → Option Entries
  | [], entries => f entries
  | key :: path, entries =>
    match Keyed.lookup key entries with
    | none => (change? f path []).map fun sub => Keyed.put key (.table .implied sub) entries
    | some (.table origin sub) =>
      (change? f path sub).map fun sub => Keyed.put key (.table origin sub) entries
    | some (.rows items) =>
      (changeLast? (change? f path) items).map fun items => Keyed.put key (.rows items) entries
    | some (.value _) => none

/-- opens the table of that name, which at most was implied before; it takes its place anew -/
def openTable? (key : String) (entries : Entries) : Option Entries :=
  match Keyed.lookup key entries with
  | none => some (Keyed.put key (.table .headed []) entries)
  | some (.table .implied sub) =>
    some (Keyed.put key (.table .headed sub) (Keyed.erase key entries))
  | some _ => none

/-- starts a new row of the array of tables of that name -/
def openRow? (key : String) (entries : Entries) : Option Entries :=
  match Keyed.lookup key entries with
  | none => some (Keyed.put key (.rows [[]]) entries)
  | some (.rows items) => some (Keyed.put key (.rows (items ++ [[]])) entries)
  | some _ => none

/-! ## keys -/

/-- gives a dotted key its value; `direct` says whether keys may stand in this table itself -/
def assign? (v : Value) : Bool → List String → Entries → Option Entries
  | _, [], _ => none
  | direct, [key], entries =>
    if direct && (Keyed.lookup key entries).isNone then some (Keyed.put key (.value v) entries)
    else none
  | _, key :: path, entries =>
    match Keyed.lookup key entries with
    | none => (assign? v true path []).map fun sub => Keyed.put key (.table .dotted sub) entries
    | some (.table .headed _) => none
    | some (.table origin sub) =>
      (assign? v (origin = .dotted) path sub).map fun sub =>
        Keyed.put key (.table origin sub) entries
    | some (.rows items) =>
      (changeLast? (assign? v false path) items).map fun items =>
        Keyed.put key (.rows items) entries
    | some (.value _) => none

/-- the entries of an inline table -/
def assignAll? : List (List String × Value) → Entries → Option Entries
  | [], entries => some entries
  | (path, v) :: rest, entries => do assignAll? rest (← assign? v true path entries)

/-! ## the finished value -/

mutual
def finish : Tree → Value
  | .value v => v
  | .table _ entries => .table (finishEntries entries)
  | .rows items => .array (finishRows items)

def finishEntries : List (String × Tree) → List (String × Value)
  | [] => []
  | (key, t) :: rest => (key, finish t) :: finishEntries rest

def finishRows : List (List (String × Tree)) → List Value
  | [] => []
  | row :: rest => .table (finishEntries row) :: finishRows rest
end

end Tree

end ForgeRelay.Toml
