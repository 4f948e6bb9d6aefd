import ForgeRelay.Decimal.Shortest
import ForgeRelay.Text.Quoted

/-!
# Documents that do not fit

`Mismatch` says why a document is not of the type that a reader wants, `Found` what was there
instead.  Only the message of a mismatch in a JSON value is ever shown.
-/

namespace ForgeRelay

inductive Found where
  | null
  | bool (b : Bool)
  | int (n : Int)
  | double (x : Binary64)
  | text (s : String)
  | list
  | map
  deriving DecidableEq, Repr

def Found.describe : Found → String
  | .null => "null"
  | .bool b => s!"boolean `{b}`"
  | .int n => s!"integer `{n}`"
  | .double x => "floating point `" ++ String.ofList (Shortest.text x) ++ "`"
  | .text s => "string " ++ Quoted.quote s
  | .list => "sequence"
  | .map => "map"

inductive Mismatch where
  | missing (key : String)
  | repeated (key : String)
  | kind (found : Found) (wanted : String)
  /-- a list of `length` items for a record of `fields` fields -/
  | tooShort (length : Nat) (record : String) (fields : Nat)
  | tooLong (length : Nat)
  | noVariant (name : String)
  | duration (text : String)
  /-- the part has no value, or is nested too deeply -/
  | unreadable
  deriving DecidableEq, Repr

def elements : Nat → String
  | 1 => "1 element"
  | n => s!"{n} elements"

def Mismatch.message : Mismatch → String
  | .missing key => s!"missing field `{key}`"
  | .repeated key => s!"duplicate field `{key}`"
  | .kind found wanted => s!"invalid type: {found.describe}, expected {wanted}"
  | .tooShort length record fields =>
    s!"invalid length {length}, expected struct {record} with {elements fields}"
  | .tooLong length => s!"invalid length {length}, expected fewer elements in array"
  | .noVariant name => s!"data did not match any variant of untagged enum {name}"
  | .duration text => s!"invalid duration '{text}'"
  | .unreadable => "unreadable value"

end ForgeRelay
