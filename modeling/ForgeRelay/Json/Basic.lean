import ForgeRelay.Decimal.Binary64
import ForgeRelay.Keyed

/-!
# JSON values

An object is a list of fields whose names increase by code point; `Json.Ordered` says so of a value
and everything in it.  `depth` counts how deeply arrays and objects are nested: a scalar has depth
0.  A number is an integer or a double; `Json.Integral` says that all numbers of a value are
integers of the range that is read and written exactly.
-/

namespace ForgeRelay

namespace Json

inductive Number where
  | int (n : Int)
  | double (x : Binary64)
  deriving DecidableEq, Repr

/-- the integers that are kept as such: from -2^63 to 2^64 - 1 -/
def Number.Exact : Number → Prop
  | .int n => -0x8000000000000000 ≤ n ∧ n < 0x10000000000000000
  | .double _ => False

end Json

inductive Json where
  | null
  | bool (b : Bool)
  | num (n : Json.Number)
  | str (s : String)
  | arr (items : List Json)
  | obj (fields : List (String × Json))
  deriving Repr, Inhabited

namespace Json

/-! ## depth -/

mutual
def depth : Json → Nat
  | .arr items => depthItems items + 1
  | .obj fields => depthFields fields + 1
  | _ => 0

def depthItems : List Json → Nat
  | [] => 0
  | j :: js => max (depth j) (depthItems js)

def depthFields : List (String × Json) → Nat
  | [] => 0
  | (_, j) :: fs => max (depth j) (depthFields fs)
end

/-! ## order and numbers -/

mutual
def Ordered : Json → Prop
  | .arr items => OrderedItems items
  | .obj fields => Keyed.Sorted fields ∧ OrderedFields fields
  | _ => True

def OrderedItems : List Json → Prop
  | [] => True
  | j :: js => Ordered j ∧ OrderedItems js

def OrderedFields : List (String × Json) → Prop
  | [] => True
  | (_, j) :: fs => Ordered j ∧ OrderedFields fs
end

mutual
def Integral : Json → Prop
  | .num n => n.Exact
  | .arr items => IntegralItems items
  | .obj fields => IntegralFields fields
  | _ => True

def IntegralItems : List Json → Prop
  | [] => True
  | j :: js => Integral j ∧ IntegralItems js

def IntegralFields : List (String × Json) → Prop
  | [] => True
  | (_, j) :: fs => Integral j ∧ IntegralFields fs
end

/-! ## building and reading -/

/-- an object of these fields; the last of several of one name counts -/
def ofFields (fields : List (String × Json)) : Json :=
  .obj (fields.foldl (fun fs f => Keyed.place f.1 f.2 fs) [])

def ofNat (n : Nat) : Json := .num (.int n)

/-- the member of that name, if the value is an object that has it -/
def member? (key : String) : Json → Option Json
  | .obj fields => Keyed.lookup key fields
  | _ => none

theorem sorted_foldl_place {β : Type} (new old : List (String × β)) (h : Keyed.Sorted old) :
    Keyed.Sorted (new.foldl (fun fs f => Keyed.place f.1 f.2 fs) old) := by
  induction new generalizing old with
  | nil => exact h
  | cons f fs ih => exact ih _ (Keyed.sorted_place h)

end Json

end ForgeRelay
