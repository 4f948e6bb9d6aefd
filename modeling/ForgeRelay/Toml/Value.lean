import ForgeRelay.Document.Basic
import ForgeRelay.Keyed
import ForgeRelay.Toml.Moment

/-!
# TOML values

Of a float it is only kept that it is one.  A value can be read as a typed value: a date stands for
its text, and an array may stand for a record.  A date can also be spelled as a table, by an entry
of a reserved name; `Value.resolve?` puts the dates themselves in place of such tables.
-/

namespace ForgeRelay.Toml

inductive Value where
  | string (s : String)
  | integer (n : Int)
  | float
  | boolean (b : Bool)
  | date (moment : Moment)
  | array (items : List Value)
  | table (entries : List (String × Value))
  deriving Repr, Inhabited

namespace Value

def get? (key : String) : Value → Option Value
  | .table entries => Keyed.lookup key entries
  | _ => none

instance : Document Value where
  text
    | .string s => .ok s
    | .date moment => .ok moment.text
    | _ => .error .unreadable
  bool
    | .boolean b => .ok b
    | _ => .error .unreadable
  list
    | .array items => .ok items
    | _ => .error .unreadable
  map
    | .table entries => .ok entries
    | _ => .error .unreadable
  fields _
    | .table entries => .ok (.keyed entries)
    | .array items => .ok (.listed items)
    | _ => .error .unreadable
  isNull _ := false
  leaf
    | .string s => .text s
    | .date moment => .text moment.text
    | .integer n => .int n
    | _ => .other

/-! ## dates spelled as tables -/

/-- the name of the entry that spells a date -/
def momentKey : String := "$__toml_private_datetime"

mutual
/-- A table is a date if its first entry has the reserved name.  The value of the entry must be the
text of the date then, and further entries do not count. -/
def resolve? : Value → Option Value
  | .array items => (resolveItems? items).map .array
  | .table entries =>
    if entries.head?.map Prod.fst = some momentKey then
      match entries with
      | (_, .string s) :: _ => (Moment.ofText? s).map .date
      | _ => none
    else (resolveEntries? entries).map .table
  | v => some v

def resolveItems? : List Value → Option (List Value)
  | [] => some []
  | v :: rest => do return (← resolve? v) :: (← resolveItems? rest)

def resolveEntries? : List (String × Value) → Option (List (String × Value))
  | [] => some []
  | (key, v) :: rest => do return (key, ← resolve? v) :: (← resolveEntries? rest)
end

end Value

end ForgeRelay.Toml
