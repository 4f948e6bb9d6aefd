import ForgeRelay.Json.Document
import ForgeRelay.Proofs.Keyed

/-!
# Drafts of values

`Draft.ofJson` is the draft of a text that writes a value: all its strings and numbers have a value
and its fields are sorted.  Only the room that is left for nesting can keep such a draft from being
a value again.

* `Draft.json?_ofJson`      the value of the draft, if the value is nested at most `room` deep;
* `Part.json_ofJson`        the same, as a typed value is read;
* `Part.entries_ofFields`   the entries of a drafted object.
-/

namespace ForgeRelay.Json

namespace Draft

mutual
/-- the draft of a text that writes the value -/
def ofJson : Json → Draft
  | .null => .null
  | .bool b => .bool b
  | .num n => .num (some n)
  | .str s => .str (some s)
  | .arr items => .arr (ofItems items)
  | .obj fields => .obj (ofFields fields)

def ofItems : List Json → List Draft
  | [] => []
  | j :: js => ofJson j :: ofItems js

def ofFields : List (String × Json) → List (Option String × Draft)
  | [] => []
  | (k, j) :: fs => (some k, ofJson j) :: ofFields fs
end

theorem ofItems_eq_map (js : List Json) : ofItems js = js.map ofJson := by
  induction js with
  | nil => rfl
  | cons j js ih =>
    rw [List.map_cons, ← ih]
    rfl

/-! ## room for nesting -/

/-- an object of sorted fields has these fields -/
theorem ofFields_of_sorted {fields : List (String × Json)} (h : Keyed.Sorted fields) :
    Json.ofFields fields = .obj fields := by
  unfold Json.ofFields
  rw [Keyed.foldl_place_of_sorted (by rwa [List.nil_append]), List.nil_append]

/-- what an array or an object holds has one level less -/
theorem map_if_room {α β : Type} (f : α → β) (a : α) (depth room : Nat) :
    (if room = 0 then none else (if depth ≤ room - 1 then some a else none).map f)
      = if depth + 1 ≤ room then some (f a) else none := by
  by_cases hr : room = 0
  · rw [if_pos hr, if_neg (by omega)]
  · rw [if_neg hr]
    by_cases hd : depth + 1 ≤ room
    · rw [if_pos hd, if_pos (by omega), Option.map_some]
    · rw [if_neg hd, if_neg (by omega), Option.map_none]

mutual
theorem json?_ofJson (room : Nat) : ∀ j : Json, j.Ordered →
    (ofJson j).json? room = if depth j ≤ room then some j else none
  | .null, _ => rfl
  | .bool _, _ => rfl
  | .num _, _ => rfl
  | .str _, _ => rfl
  | .arr items, h => by
    show (if room = 0 then none else (items? (room - 1) (ofItems items)).map Json.arr) = _
    rw [items?_ofItems (room - 1) items h, map_if_room]
    rfl
  | .obj fields, h => by
    show (if room = 0 then none else (fields? (room - 1) (ofFields fields)).map Json.ofFields) = _
    rw [fields?_ofFields (room - 1) fields h.2, map_if_room, ofFields_of_sorted h.1]
    rfl

theorem items?_ofItems (room : Nat) : ∀ js : List Json, OrderedItems js →
    items? room (ofItems js) = if depthItems js ≤ room then some js else none
  | [], _ => rfl
  | j :: js, h => by
    show (match json? room (ofJson j), items? room (ofItems js) with
      | some j, some js => some (j :: js)
      | _, _ => none) = if max (depth j) (depthItems js) ≤ room then some (j :: js) else none
    rw [json?_ofJson room j h.1, items?_ofItems room js h.2]
    by_cases hj : depth j ≤ room
    · by_cases hjs : depthItems js ≤ room
      · rw [if_pos hj, if_pos hjs, if_pos (by omega)]
      · rw [if_pos hj, if_neg hjs, if_neg (by omega)]
    · rw [if_neg hj, if_neg (show ¬ max (depth j) (depthItems js) ≤ room by omega)]

theorem fields?_ofFields (room : Nat) : ∀ fs : List (String × Json), OrderedFields fs →
    fields? room (ofFields fs) = if depthFields fs ≤ room then some fs else none
  | [], _ => rfl
  | (k, j) :: fs, h => by
    show (match some k, json? room (ofJson j), fields? room (ofFields fs) with
      | some k, some j, some fs => some ((k, j) :: fs)
      | _, _, _ => none)
        = if max (depth j) (depthFields fs) ≤ room then some ((k, j) :: fs) else none
    rw [json?_ofJson room j h.1, fields?_ofFields room fs h.2]
    by_cases hj : depth j ≤ room
    · by_cases hfs : depthFields fs ≤ room
      · rw [if_pos hj, if_pos hfs, if_pos (by omega)]
      · rw [if_pos hj, if_neg hfs, if_neg (by omega)]
    · rw [if_neg hj, if_neg (show ¬ max (depth j) (depthFields fs) ≤ room by omega)]
end

end Draft

/-! ## parts -/

namespace Part

theorem json_ofJson (room : Nat) {j : Json} (h : j.Ordered) :
    Part.json ⟨room, Draft.ofJson j⟩ = if depth j ≤ room then .ok j else .error .unreadable := by
  unfold Part.json
  simp only [Draft.json?_ofJson room j h]
  by_cases hd : depth j ≤ room
  · rw [if_pos hd, if_pos hd]
  · rw [if_neg hd, if_neg hd]

theorem entries_ofFields (room : Nat) (fields : List (String × Json)) :
    entries room (Draft.ofFields fields)
      = .ok (fields.map fun f => (f.1, ⟨room, Draft.ofJson f.2⟩)) := by
  induction fields with
  | nil => rfl
  | cons f fields ih =>
    show (entries room (Draft.ofFields fields)).map ((f.1, ⟨room, Draft.ofJson f.2⟩) :: ·) = _
    rw [ih]
    rfl

end Part

end ForgeRelay.Json
