import ForgeRelay.Document.Basic
import ForgeRelay.Json.Basic
import ForgeRelay.Yaml.Node
import ForgeRelay.Yaml.Schema

/-!
# YAML as documents

A part of a stream can be read as a typed value: a scalar of any kind where a text is wanted, a
mapping where a record is wanted, and nothing at all where a list or a record is.  `Yaml.json?`
gives the JSON value of a stream.
-/

namespace ForgeRelay.Yaml

/-- a part of a stream; there is no node where nothing stands in the stream -/
structure Part where
  stream : Stream
  node : Option Node

namespace Part

/-- the node itself, or the one that an alias stands for -/
def target (p : Part) : Option Node :=
  match p.node with
  | some (.alias slot) => p.stream.node? slot
  | n => n

/-- whether nothing is written here -/
def isVoid : Option Node → Bool
  | none => true
  | some (.scalar _ plain text) => plain && text.isEmpty
  | _ => false

def entries? (s : Stream) : List (Node × Node) → Option (List (String × Part))
  | [] => some []
  | (key, value) :: rest =>
    match (Part.mk s (some key)).target, entries? s rest with
    | some (.scalar _ _ text), some es => some ((text, ⟨s, some value⟩) :: es)
    | _, _ => none

def entries (p : Part) : Except Mismatch (List (String × Part)) :=
  match p.target with
  | some (.map _ fields) =>
    match entries? p.stream fields with
    | some es => .ok es
    | none => .error .unreadable
  | n => if isVoid n then .ok [] else .error .unreadable

instance : Document Part where
  text p :=
    match p.target with
    | some (.scalar _ _ text) => .ok text
    | _ => .error .unreadable
  bool p :=
    match p.target with
    | some (.scalar tag plain text) =>
      match scalar? tag plain text with
      | some (.bool b) => .ok b
      | _ => .error .unreadable
    | _ => .error .unreadable
  list p :=
    match p.target with
    | some (.list _ items) => .ok (items.map fun n => ⟨p.stream, some n⟩)
    | n => if isVoid n then .ok [] else .error .unreadable
  map p := p.entries
  fields _ p := p.entries.map .keyed
  isNull p :=
    match p.target with
    | none => true
    | some (.scalar tag plain text) => scalar? tag plain text = some .null
    | _ => false
  leaf p :=
    match p.target with
    | some (.scalar tag plain text) =>
      match scalar? tag plain text with
      | some (.text s) => .text s
      | some (.int n) => .int n
      | _ => .other
    | _ => .other

end Part

/-! ## limits

A value may follow aliases a hundred times as often as its document has marks, and no more.
-/

/-- how often aliases may be followed in a document -/
def Stream.room (s : Stream) : Nat := 100 * (s.root.map Node.size).getD 0

/-- what a typed value reads of a document -/
inductive Shape where
  | nothing
  | leaf
  | list (item : Shape)
  | record (field : String → Shape)

namespace Part

def isAlias (p : Part) : Bool :=
  match p.node with
  | some (.alias _) => true
  | _ => false

/-- how many aliases are followed to read a part; those of names in a record count too -/
def follows : Shape → Part → Nat
  | .nothing, _ => 0
  | .leaf, p => p.isAlias.toNat
  | .list item, p =>
    p.isAlias.toNat +
      match p.target with
      | some (.list _ items) => (items.map fun n => follows item ⟨p.stream, some n⟩).sum
      | _ => 0
  | .record field, p =>
    p.isAlias.toNat +
      match p.target with
      | some (.map _ fields) =>
        (fields.map fun f =>
          let key : Part := ⟨p.stream, some f.1⟩
          match key.target with
          | some (.scalar _ _ name) =>
            key.isAlias.toNat + follows (field name) ⟨p.stream, some f.2⟩
          | _ => 0).sum
      | _ => 0

end Part

/-- reads the document of a stream as a typed value -/
def decode {α : Type} (shape : Shape) (decoder : Decoder Part α) (s : String) :
    Except Mismatch α :=
  match Stream.read? s with
  | some stream =>
    let part : Part := ⟨stream, stream.root⟩
    if stream.room < part.follows shape then .error .unreadable else decoder part
  | none => .error .unreadable

/-! ## JSON values -/

/-- integers past 64 bits have no JSON value; infinity and NaN become null -/
def Scalar.json? : Scalar → Option Json
  | .null => some .null
  | .bool b => some (.bool b)
  | .int n =>
    if -0x8000000000000000 ≤ n ∧ n < 0x10000000000000000 then some (.num (.int n)) else none
  | .double (some x) => some (.num (.double x))
  | .double none => some .null
  | .text s => some (.str s)

/-- the node that is meant; the state is how many aliases may still be followed -/
def follow (s : Stream) : Node → StateT Nat Option Node
  | .alias slot => do
    match ← get, s.node? slot with
    | left + 1, some n =>
      set left
      return n
    | _, _ => failure
  | n => return n

/-- `depth` bounds the nesting of collections; one with a tag of an application has no value -/
def Node.json? (s : Stream) : (depth : Nat) → Node → StateT Nat Option Json
  | 0, n => do
    match ← follow s n with
    | .scalar tag plain text => ((scalar? tag plain text).bind Scalar.json? : Option Json)
    | _ => failure
  | depth + 1, n => do
    match ← follow s n with
    | .scalar tag plain text => ((scalar? tag plain text).bind Scalar.json? : Option Json)
    | .list tag items =>
      if isLocalTag tag then failure
      return .arr (← items.mapM (Node.json? s depth))
    | .map tag fields =>
      if isLocalTag tag then failure
      let fields ← fields.mapM fun f => do
        match ← follow s f.1 with
        | .scalar _ _ key => return (key, ← Node.json? s depth f.2)
        | _ => failure
      return Json.ofFields fields
    | .alias _ => failure

/-- the JSON value of a stream -/
def json? (s : String) : Option Json := do
  let stream ← Stream.read? s
  match stream.root with
  | none => return .null
  | some root => return (← (root.json? stream 128).run stream.room).1

end ForgeRelay.Yaml
