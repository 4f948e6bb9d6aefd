import ForgeRelay.Document.Basic

/-!
# Reading records field by field

A record read from a map is put together from its fields; here is what each part of it contributes.

* `Record.read_keyed`       reading from a document that gives its entries by name;
* `Record.keyed_map`, `Record.keyed_seq`, `Record.keyed_seq_ok`   the fields one after the other;
* `Record.keyed_required`, `Record.keyed_withDefault`   a field that is there once;
* `mapM_map_of_ok`          a list of readable items is read item by item;
* `mapM_eq_find?`           of several items that cannot be read the first is reported.
-/

namespace ForgeRelay

theorem mapM_map_of_ok {α β ε : Type} {f : α → Except ε β} {g : β → α}
    (h : ∀ b, f (g b) = .ok b) (bs : List β) : (bs.map g).mapM f = .ok bs := by
  induction bs with
  | nil => rfl
  | cons b bs ih =>
    rw [List.map_cons, List.mapM_cons, h, ih]
    rfl

/-- if `bad` tells the items that fail, the first of them makes the list fail -/
theorem mapM_eq_find? {α β ε : Type} {f : β → Except ε α} {bad : β → Bool} {g : β → α} {e : β → ε}
    (h : ∀ b, f b = if bad b then .error (e b) else .ok (g b)) (bs : List β) :
    bs.mapM f = ((bs.find? bad).map e).elim (.ok (bs.map g)) .error := by
  induction bs with
  | nil => rfl
  | cons b bs ih =>
    rw [List.mapM_cons, h, ih]
    cases hb : bad b with
    | true =>
      rw [List.find?_cons_of_pos hb]
      rfl
    | false =>
      rw [List.find?_cons_of_neg (by rw [hb]; exact Bool.false_ne_true)]
      cases bs.find? bad <;> rfl

namespace Record

section
variable {δ α β : Type} {entries : List (String × δ)}

theorem read_keyed [Document δ] {name : String} (r : Record δ α) {d : δ}
    (h : Document.fields name d = .ok (.keyed entries)) :
    read name r d = (r.keyed entries).mapError Fault.mismatch := by
  unfold read
  rw [h]
  dsimp only [bind, Except.bind]
  cases r.keyed entries <;> rfl

theorem keyed_seq {f : Record δ (α → β)} {g : α → β} (h : f.keyed entries = .ok g)
    (r : Record δ α) : (f <*> r).keyed entries = (r.keyed entries).map g := by
  show (apply f r).keyed entries = _
  unfold apply
  simp only [h]
  cases r.keyed entries <;> rfl

/-- the same with the later field read first -/
theorem keyed_seq_ok {r : Record δ α} {a : α} (h : r.keyed entries = .ok a)
    (f : Record δ (α → β)) : (f <*> r).keyed entries = (f.keyed entries).map (· a) := by
  show (apply f r).keyed entries = _
  unfold apply
  simp only [h]
  cases f.keyed entries <;> rfl

theorem keyed_map (f : α → β) (r : Record δ α) :
    (f <$> r).keyed entries = (r.keyed entries).map f :=
  keyed_seq (f := const f) rfl r

theorem keyed_field {key k : String} {d : δ} (value : Decoder δ α) (unnamed unplaced : Option α)
    (h : entries.filter (·.1 = key) = [(k, d)]) :
    (field key value unnamed unplaced).keyed entries = (value d).mapError (.wrong key) := by
  unfold field
  simp only [h]
  cases value d <;> rfl

theorem keyed_required {key k : String} {d : δ} (value : Decoder δ α)
    (h : entries.filter (·.1 = key) = [(k, d)]) :
    (required key value).keyed entries = (value d).mapError (.wrong key) :=
  keyed_field value none none h

theorem keyed_withDefault {key k : String} {d : δ} (default : α) (value : Decoder δ α)
    (h : entries.filter (·.1 = key) = [(k, d)]) :
    (withDefault key default value).keyed entries = (value d).mapError (.wrong key) :=
  keyed_field value (some default) (some default) h

theorem keyed_withDefault_ok {key k : String} {d : δ} {a : α} (default : α) {value : Decoder δ α}
    (h : entries.filter (·.1 = key) = [(k, d)]) (hd : value d = .ok a) :
    (withDefault key default value).keyed entries = .ok a := by
  rw [keyed_withDefault default value h, hd]
  rfl

end

end Record

end ForgeRelay
