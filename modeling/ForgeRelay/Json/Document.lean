import ForgeRelay.Document.Basic
import ForgeRelay.Json.Draft

/-!
# JSON as documents

Both a value and a draft can be read as typed values.  A draft is read with the `room` that is left
for nesting, and never asks for a value in a part that the reader passes over.  In both, a list may
stand for a record.
-/

namespace ForgeRelay.Json

def found : Json → Found
  | .null => .null
  | .bool b => .bool b
  | .num (.int n) => .int n
  | .num (.double x) => .double x
  | .str s => .text s
  | .arr _ => .list
  | .obj _ => .map

instance : Document Json where
  text
    | .str s => .ok s
    | j => .error (.kind j.found "a string")
  bool
    | .bool b => .ok b
    | j => .error (.kind j.found "a boolean")
  list
    | .arr items => .ok items
    | j => .error (.kind j.found "a sequence")
  map
    | .obj fields => .ok fields
    | j => .error (.kind j.found "a map")
  fields record
    | .obj fields => .ok (.keyed fields)
    | .arr items => .ok (.listed items)
    | j => .error (.kind j.found ("struct " ++ record))
  isNull
    | .null => true
    | _ => false
  leaf
    | .str s => .text s
    | .num (.int n) => .int n
    | _ => .other

/-! ## drafts -/

/-- a part of a draft, with the nesting allowed in it -/
structure Part where
  room : Nat
  draft : Draft

namespace Part

def json : Part → Except Mismatch Json
  | ⟨room, d⟩ =>
    match d.json? room with
    | some j => .ok j
    | none => .error .unreadable

/-- the entries of an object whose names can all be read -/
def entries (room : Nat) : List (Option String × Draft) → Except Mismatch (List (String × Part))
  | [] => .ok []
  | (some key, d) :: rest => (entries room rest).map ((key, ⟨room, d⟩) :: ·)
  | (none, _) :: _ => .error .unreadable

instance : Document Part where
  text
    | ⟨_, .str (some s)⟩ => .ok s
    | _ => .error .unreadable
  bool
    | ⟨_, .bool b⟩ => .ok b
    | _ => .error .unreadable
  list
    | ⟨room + 1, .arr items⟩ => .ok (items.map (⟨room, ·⟩))
    | _ => .error .unreadable
  map
    | ⟨room + 1, .obj fields⟩ => entries room fields
    | _ => .error .unreadable
  fields _
    | ⟨room + 1, .obj fields⟩ => (entries room fields).map .keyed
    | ⟨room + 1, .arr items⟩ => .ok (.listed (items.map (⟨room, ·⟩)))
    | _ => .error .unreadable
  isNull
    | ⟨_, .null⟩ => true
    | _ => false
  leaf
    | ⟨_, .str (some s)⟩ => .text s
    | ⟨_, .num (some (.int n))⟩ => .int n
    | _ => .other

end Part

/-- reads a whole text as a typed value -/
def decode {α : Type} (decoder : Decoder Part α) (bs : Bytes) : Except Mismatch α :=
  match Draft.read? bs with
  | some d => decoder ⟨maxDepth, d⟩
  | none => .error .unreadable

end ForgeRelay.Json
