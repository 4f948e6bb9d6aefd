/-!
# Readers of characters

A `Reader` takes what it reads from the front of the characters and gives what is left, or nothing
if it cannot read there.
-/

namespace ForgeRelay.Toml

abbrev Reader (α : Type) := List Char → Option (α × List Char)

def isDigit (c : Char) : Bool := '0' ≤ c && c ≤ '9'

/-- the number that decimal digits write -/
def digitsValue (ds : List Char) : Nat := ds.foldl (fun n d => 10 * n + (d.toNat - 0x30)) 0

/-- exactly `width` digits -/
def fixed? (width : Nat) : Reader Nat := fun cs =>
  let ds := cs.take width
  if ds.length = width ∧ ds.all isDigit then some (digitsValue ds, cs.drop width) else none

def expect? (c : Char) : List Char → Option (List Char)
  | d :: cs => if c = d then some cs else none
  | [] => none

end ForgeRelay.Toml
