import ForgeRelay.Document.Mismatch
import ForgeRelay.Duration
import ForgeRelay.Keyed

/-!
# Reading typed values from documents

`Document` is what a format offers to a reader of typed values: how it answers one that wants a
text, a list, a map or the fields of a record.  A `Decoder` reads a value of one type from any
format.

`Record` reads the fields of a record.  They are found by name in a map, and a list may stand for a
record if the format allows it: then they are found by place.  In a map a field of the wrong kind
is reported before a missing one, the field whose name sorts first before the others, and of the
missing ones the one declared first.  In a list the first field that fails is reported.
-/

namespace ForgeRelay

/-- a single value that says itself what it is -/
inductive Leaf where
  | text (s : String)
  | int (n : Int)
  | other
  deriving DecidableEq, Repr

/-- where the fields of a record are -/
inductive Fields (δ : Type) where
  | keyed (entries : List (String × δ))
  | listed (items : List δ)

class Document (δ : Type) where
  text : δ → Except Mismatch String
  bool : δ → Except Mismatch Bool
  list : δ → Except Mismatch (List δ)
  /-- entries in order; of several of one name the last counts -/
  map : δ → Except Mismatch (List (String × δ))
  fields : (record : String) → δ → Except Mismatch (Fields δ)
  isNull : δ → Bool
  leaf : δ → Leaf

abbrev Decoder (δ α : Type) := δ → Except Mismatch α

namespace Decoder

variable {δ α : Type} [Document δ]

def text : Decoder δ String := Document.text
def bool : Decoder δ Bool := Document.bool

def list (item : Decoder δ α) : Decoder δ (List α) := fun d => do
  (← Document.list d).mapM item

def map (value : Decoder δ α) : Decoder δ (StringMap α) := fun d => do
  let entries ← (← Document.map d).mapM fun e => do return (e.1, ← value e.2)
  return StringMap.ofList entries

/-- null stands for nothing -/
def optional (value : Decoder δ α) : Decoder δ (Option α) := fun d =>
  if Document.isNull d then .ok none else (value d).map some

/-- an integer below `bound` and not below zero -/
def nat (bound : Nat) : Decoder δ Nat := fun d =>
  match Document.leaf d with
  | .int (.ofNat n) => if n < bound then .ok n else .error .unreadable
  | _ => .error .unreadable

/-- a number of seconds, or the text of a duration -/
def duration : Decoder δ Duration := fun d =>
  match Document.leaf d with
  | .text s =>
    match Duration.parse? s with
    | some t => .ok t
    | none => .error (.duration s)
  | .int (.ofNat n) =>
    if n < Duration.limit then .ok (Duration.ofSecs n) else .error (.noVariant "RawDuration")
  | _ => .error (.noVariant "RawDuration")

end Decoder

/-! ## records -/

/-- why fields in a map are refused -/
inductive Record.Fault where
  | wrong (key : String) (why : Mismatch)
  | missing (key : String)

/-- the one of two faults that is reported; the first was declared first -/
def Record.Fault.worse : Record.Fault → Record.Fault → Record.Fault
  | .wrong k m, .wrong k' m' => if k' < k then .wrong k' m' else .wrong k m
  | .wrong k m, .missing _ => .wrong k m
  | .missing _, .wrong k m => .wrong k m
  | .missing k, .missing _ => .missing k

def Record.Fault.mismatch : Record.Fault → Mismatch
  | .wrong _ why => why
  | .missing key => .missing key

structure Record (δ α : Type) where
  size : Nat
  keyed : List (String × δ) → Except Record.Fault α
  /-- reads from the items that are left, of which the first is at the given place; `short` is the
  fault of a place past the end -/
  listed : (short : Nat → Mismatch) → Nat → List δ → Except Mismatch (α × List δ)

namespace Record

variable {δ α β : Type}

def const (a : α) : Record δ α :=
  ⟨0, fun _ => .ok a, fun _ _ items => .ok (a, items)⟩

def apply (f : Record δ (α → β)) (x : Record δ α) : Record δ β where
  size := f.size + x.size
  keyed entries :=
    match f.keyed entries, x.keyed entries with
    | .ok g, .ok a => .ok (g a)
    | .ok _, .error e => .error e
    | .error e, .ok _ => .error e
    | .error e, .error e' => .error (e.worse e')
  listed short place items := do
    let (g, items) ← f.listed short place items
    let (a, items) ← x.listed short (place + f.size) items
    return (g a, items)

instance : Applicative (Record δ) where
  pure := const
  seq f x := apply f (x ())

/-- one field; `unnamed` is its value in a map without it, `unplaced` in a list that is too short -/
def field (key : String) (value : Decoder δ α) (unnamed unplaced : Option α) : Record δ α where
  size := 1
  keyed entries :=
    match entries.filter (·.1 = key) with
    | [] =>
      match unnamed with
      | some a => .ok a
      | none => .error (.missing key)
    | [(_, d)] =>
      match value d with
      | .ok a => .ok a
      | .error why => .error (.wrong key why)
    | _ => .error (.wrong key (.repeated key))
  listed short place items :=
    match items with
    | [] =>
      match unplaced with
      | some a => .ok (a, [])
      | none => .error (short place)
    | d :: items => do return (← value d, items)

def required (key : String) (value : Decoder δ α) : Record δ α := field key value none none

def withDefault (key : String) (default : α) (value : Decoder δ α) : Record δ α :=
  field key value (some default) (some default)

/-- null and, in a map, absence stand for nothing -/
def optional [Document δ] (key : String) (value : Decoder δ α) : Record δ (Option α) :=
  field key (Decoder.optional value) (some none) none

/-- null and absence stand for nothing -/
def optionalAnywhere [Document δ] (key : String) (value : Decoder δ α) : Record δ (Option α) :=
  field key (Decoder.optional value) (some none) (some none)

def read [Document δ] (name : String) (r : Record δ α) : Decoder δ α := fun d => do
  match ← Document.fields name d with
  | .keyed entries =>
    match r.keyed entries with
    | .ok a => .ok a
    | .error fault => .error fault.mismatch
  | .listed items =>
    let (a, rest) ← r.listed (fun place => .tooShort place name r.size) 0 items
    if rest.isEmpty then .ok a else .error (.tooLong items.length)

end Record

end ForgeRelay
