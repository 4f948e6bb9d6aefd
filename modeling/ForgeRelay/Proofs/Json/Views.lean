import ForgeRelay.Proofs.Document
import ForgeRelay.Proofs.Json.Drafts
import Mathlib.Data.List.Forall2

/-!
# Values as documents

A value is read as it is, or as the draft of a text that writes it.  `Shows` says what the two have
in common, so that what a reader makes of a value is proved once for both.

* `shows_value`, `shows_part`   a value, and the draft of its text with room for nesting;
* `Shows.list_forall₂`, `Shows.list_map_ok`   a list is read item by item;
* `Shows.read_obj`, `Shows.required_text`   a record is read field by field;
* `IsObjectOf`, `Record.filter_of_perm`   the order of the fields does not matter.
-/

namespace ForgeRelay

/-- a field that is there once is there once in any order of the fields -/
theorem Record.filter_of_perm {δ : Type} {entries old : List (String × δ)} {key : String}
    {e : String × δ} (hperm : entries.Perm old) (h : old.filter (·.1 = key) = [e]) :
    entries.filter (·.1 = key) = [e] := by
  have hfilter := hperm.filter (·.1 = key)
  rw [h] at hfilter
  exact List.perm_singleton.1 hfilter

namespace Json

/-- the value is an object of these fields, in any order -/
def IsObjectOf (fields : List (String × Json)) (j : Json) : Prop :=
  ∃ fs, fs.Perm fields ∧ j = .obj fs

theorem isObjectOf_obj (fields : List (String × Json)) : (obj fields).IsObjectOf fields :=
  ⟨fields, .refl fields, rfl⟩

theorem isObjectOf_ofFields {fs fields : List (String × Json)} (h : Keyed.Sorted fs)
    (hperm : fs.Perm fields) : (ofFields fs).IsObjectOf fields :=
  ⟨fs, hperm, Draft.ofFields_of_sorted h⟩

/-- `view room j` is a document with the parts of `j`, as far as `room` levels down -/
structure Shows {δ : Type} [Document δ] (view : Nat → Json → δ) : Prop where
  text : ∀ room s, Document.text (view room (.str s)) = .ok s
  leaf : ∀ room s, Document.leaf (view room (.str s)) = .text s
  list : ∀ room js, Document.list (view (room + 1) (.arr js)) = .ok (js.map (view room))
  fields : ∀ record room fs, Document.fields record (view (room + 1) (.obj fs))
    = .ok (.keyed (fs.map fun f => (f.1, view room f.2)))

theorem shows_value : Shows fun _ (j : Json) => j where
  text _ _ := rfl
  leaf _ _ := rfl
  list _ js := congrArg Except.ok (List.map_id js).symm
  fields _ _ fs := congrArg (Except.ok ∘ Fields.keyed) (List.map_id fs).symm

theorem shows_part : Shows fun room j => (⟨room, Draft.ofJson j⟩ : Part) where
  text _ _ := rfl
  leaf _ _ := rfl
  list room js := by
    show Except.ok ((Draft.ofItems js).map fun d => (⟨room, d⟩ : Part)) = _
    rw [Draft.ofItems_eq_map, List.map_map]
    rfl
  fields _ room fs := by
    show (Part.entries room (Draft.ofFields fs)).map Fields.keyed = _
    rw [Part.entries_ofFields]
    rfl

namespace Shows

variable {δ α β : Type} [Document δ] {view : Nat → Json → δ} (h : Shows view)

include h

theorem list_arr (item : Decoder δ α) (room : Nat) (js : List Json) :
    Decoder.list item (view (room + 1) (.arr js)) = (js.map (view room)).mapM item := by
  unfold Decoder.list
  rw [h.list]
  rfl

/-- each item is read as what it writes -/
theorem list_forall₂ {writes : β → Json → Prop} {item : Decoder δ α} {room : Nat}
    {read : β → Except Mismatch α} {bs : List β} {js : List Json}
    (hbs : List.Forall₂ writes bs js) (hitem : ∀ b j, writes b j → item (view room j) = read b) :
    Decoder.list item (view (room + 1) (.arr js)) = bs.mapM read := by
  rw [h.list_arr]
  induction hbs with
  | nil => rfl
  | cons hb _ ih => rw [List.map_cons, List.mapM_cons, List.mapM_cons, hitem _ _ hb, ih]

/-- a list of values that can all be read is read -/
theorem list_map_ok {item : Decoder δ β} {room : Nat} {f : β → Json}
    (hitem : ∀ b, item (view room (f b)) = .ok b) (bs : List β) :
    Decoder.list item (view (room + 1) (.arr (bs.map f))) = .ok bs := by
  rw [h.list_arr, List.map_map]
  exact mapM_map_of_ok (f := item) hitem bs

theorem read_obj (name : String) (r : Record δ α) (room : Nat) (fs : List (String × Json)) :
    Record.read name r (view (room + 1) (.obj fs))
      = (r.keyed (fs.map fun f => (f.1, view room f.2))).mapError Record.Fault.mismatch :=
  Record.read_keyed r (h.fields name room fs)

/-- a field of a record that is a text -/
theorem required_text {key k s : String} {room : Nat} {entries : List (String × δ)}
    (hfield : entries.filter (·.1 = key) = [(k, view room (.str s))]) :
    (Record.required key Decoder.text).keyed entries = .ok s := by
  have htext : Decoder.text (view room (.str s)) = .ok s := h.text room s
  rw [Record.keyed_required _ hfield, htext]
  rfl

end Shows

end Json

end ForgeRelay
