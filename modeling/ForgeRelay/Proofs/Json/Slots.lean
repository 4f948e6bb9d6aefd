import ForgeRelay.Json.Document
import ForgeRelay.Proofs.Document
import ForgeRelay.Proofs.Json.Values
import ForgeRelay.Proofs.Keyed

/-!
# Places in values

A record is looked for in an object by the names of its fields, and in an array by their places.
An array of exactly as many items as there are fields stands for the object that gives them these
names; no other array does.  A `Slot` is what there is in a place: nothing, a value, or something
that cannot be what is wanted.

* `Record.Named`, `Record.Named.seq`   records whose fields have the given names, in this order;
* `Record.Named.read_toOption`   such a record is read from the members of a value;
* `Record.keyed_required_toOption`, `Record.keyed_optional_toOption`   its fields one by one;
* `Slot.member`, `Slot.text`     going down to a field, and to a text.

Why a value does not fit is left out here: `Except.toOption` of an outcome is all that is compared.
-/

namespace ForgeRelay

/-! ## outcomes without their reasons -/

section
variable {ε ε' α β : Type}

theorem toOption_map (f : α → β) (x : Except ε α) : (x.map f).toOption = x.toOption.map f := by
  cases x <;> rfl

theorem toOption_eq_some_iff {x : Except ε α} {a : α} : x.toOption = some a ↔ x = .ok a := by
  cases x <;> simp [Except.toOption]

theorem toOption_mapError (f : ε → ε') (x : Except ε α) : (x.mapError f).toOption = x.toOption := by
  cases x <;> rfl

theorem toOption_bind (x : Except ε α) (f : α → Except ε β) :
    (x >>= f).toOption = x.toOption.bind fun a => (f a).toOption := by
  cases x <;> rfl

end

/-! ## records by name and by place -/

namespace Record

variable {δ α β : Type}

theorem keyed_seq_toOption (f : Record δ (α → β)) (x : Record δ α) (entries : List (String × δ)) :
    ((f <*> x).keyed entries).toOption
      = (f.keyed entries).toOption.bind fun g => (x.keyed entries).toOption.map g := by
  show ((apply f x).keyed entries).toOption = _
  unfold apply
  dsimp only
  cases f.keyed entries <;> cases x.keyed entries <;> rfl

theorem listed_seq_toOption (f : Record δ (α → β)) (x : Record δ α) (short : Nat → Mismatch)
    (place : Nat) (items : List δ) :
    ((f <*> x).listed short place items).toOption
      = (f.listed short place items).toOption.bind fun g =>
          (x.listed short (place + f.size) g.2).toOption.map fun a => (g.1 a.1, a.2) := by
  show ((apply f x).listed short place items).toOption = _
  unfold apply
  rw [toOption_bind]
  congr 1
  funext g
  rw [toOption_bind]
  cases (x.listed short (place + f.size) g.2).toOption <;> rfl

theorem zip_append_left (fs xs : List String) (items : List δ) :
    (fs ++ xs).zip items = fs.zip items ++ xs.zip (items.drop fs.length) := by
  induction fs generalizing items with
  | nil => rfl
  | cons k fs ih =>
    cases items with
    | nil => exact List.zip_nil_right.symm
    | cons d items => exact congrArg ((k, d) :: ·) (ih items)

theorem filter_zip_eq_nil {key : String} {names : List String} (h : key ∉ names) (items : List δ) :
    (names.zip items).filter (·.1 = key) = [] := by
  rw [List.filter_eq_nil_iff]
  intro e he hkey
  have hmem : e.1 ∈ names := (List.of_mem_zip he).1
  exact h (of_decide_eq_true hkey ▸ hmem)

/-- the fields of a record have these names, in this order -/
structure Named (r : Record δ α) (names : List String) : Prop where
  /-- in a map nothing else is looked at -/
  keyed : ∀ {entries entries' : List (String × δ)},
    (∀ key ∈ names, entries.filter (·.1 = key) = entries'.filter (·.1 = key)) →
      r.keyed entries = r.keyed entries'
  /-- a list is read like the map that gives these names to its first items -/
  listed : ∀ short place items, (r.listed short place items).toOption =
    if names.length ≤ items.length
    then (r.keyed (names.zip items)).toOption.map (·, items.drop names.length)
    else none

theorem Named.const (a : α) : Named (const a : Record δ α) [] where
  keyed _ := rfl
  listed _ _ _ := (if_pos (Nat.zero_le _)).symm

/-- a field that a list cannot leave out -/
theorem Named.field (key : String) (value : Decoder δ α) (unnamed : Option α) :
    Named (Record.field key value unnamed none) [key] where
  keyed h := by
    unfold Record.field
    dsimp only
    rw [h key (List.mem_singleton_self key)]
  listed short place items := by
    cases items with
    | nil => rfl
    | cons d items =>
      have hd : [(key, d)].filter (·.1 = key) = [(key, d)] := by simp
      have hlen : [key].length ≤ (d :: items).length := Nat.succ_le_succ (Nat.zero_le _)
      rw [if_pos hlen, List.zip_cons_cons, List.zip_nil_left, keyed_field value unnamed none hd,
        toOption_mapError]
      unfold Record.field
      dsimp only
      rw [toOption_bind]
      cases (value d).toOption <;> rfl

theorem Named.optional [Document δ] (key : String) (value : Decoder δ α) :
    Named (Record.optional key value) [key] :=
  Named.field key (Decoder.optional value) (some none)

section
variable {f : Record δ (α → β)} {x : Record δ α} {fs xs : List String}

theorem Named.seq (hf : Named f fs) (hx : Named x xs) (hne : ∀ key ∈ fs, key ∉ xs) :
    Named (f <*> x) (fs ++ xs) where
  keyed h := by
    show (apply f x).keyed _ = (apply f x).keyed _
    unfold apply
    dsimp only
    rw [hf.keyed fun key hkey => h key (List.mem_append_left xs hkey),
      hx.keyed fun key hkey => h key (List.mem_append_right fs hkey)]
  listed short place items := by
    rw [listed_seq_toOption, hf.listed, keyed_seq_toOption, List.length_append]
    by_cases hlen : fs.length ≤ items.length
    · -- a name of one record is not among the names of the other
      have hfirst : f.keyed (fs.zip items)
          = f.keyed (fs.zip items ++ xs.zip (items.drop fs.length)) := by
        refine hf.keyed fun key hkey => ?_
        rw [List.filter_append, filter_zip_eq_nil (hne key hkey), List.append_nil]
      have hrest : x.keyed (xs.zip (items.drop fs.length))
          = x.keyed (fs.zip items ++ xs.zip (items.drop fs.length)) := by
        refine hx.keyed fun key hkey => ?_
        rw [List.filter_append, filter_zip_eq_nil fun h => hne key h hkey, List.nil_append]
      rw [if_pos hlen, zip_append_left, ← hfirst, ← hrest, ← List.drop_drop]
      cases (f.keyed (fs.zip items)).toOption with
      | none => exact (ite_self _).symm
      | some g =>
        dsimp only [Option.map_some, Option.bind_some]
        rw [hx.listed, List.length_drop]
        by_cases hxs : xs.length ≤ items.length - fs.length
        · have hboth : fs.length + xs.length ≤ items.length := by omega
          rw [if_pos hxs, if_pos hboth, Option.map_map, Option.map_map]
          rfl
        · have hshort : ¬ fs.length + xs.length ≤ items.length := by omega
          rw [if_neg hxs, if_neg hshort]
          rfl
    · have hlong : ¬ fs.length + xs.length ≤ items.length := fun h => hlen (by omega)
      rw [if_neg hlen, if_neg hlong]
      rfl

theorem Named.map (f : α → β) (hx : Named x xs) : Named (f <$> x) xs :=
  Named.seq (Named.const f) hx fun _ h => (nomatch h)

end

end Record

/-! ## places -/

namespace Json

/-- the members of a value that stands for a record of these fields -/
def membersAs? (names : List String) : Json → Option (List (String × Json))
  | .obj members => some members
  | .arr items => if items.length = names.length then some (names.zip items) else none
  | _ => none

section
variable {names : List String} {j : Json} {members : List (String × Json)}

theorem nodup_of_membersAs? (hn : names.Nodup) (h : j.Ordered)
    (hm : j.membersAs? names = some members) : (members.map Prod.fst).Nodup := by
  unfold membersAs? at hm
  split at hm
  · cases hm
    exact h.1.nodup
  · split at hm
    · rename_i hlen
      cases hm
      rw [List.map_fst_zip (Nat.le_of_eq hlen.symm)]
      exact hn
    · cases hm
  · cases hm

theorem ordered_of_membersAs? (h : j.Ordered) (hm : j.membersAs? names = some members) :
    ∀ e ∈ members, e.2.Ordered := by
  unfold membersAs? at hm
  split at hm
  · cases hm
    exact orderedFields_iff.1 h.2
  · split at hm
    · cases hm
      exact fun e he => orderedItems_iff.1 h e.2 (List.of_mem_zip he).2
    · cases hm
  · cases hm

end

end Json

/-- what there is where a value is looked for -/
inductive Slot where
  /-- nothing, or null -/
  | absent
  /-- something of the wrong kind, here or on the way here -/
  | wrong
  | holds (j : Json)

namespace Slot

def ofMember : Option Json → Slot
  | none | some .null => .absent
  | some j => .holds j

/-- the field of that name, where a record of these fields is to be -/
def member (names : List String) (key : String) : Slot → Slot
  | .absent => .absent
  | .wrong => .wrong
  | .holds j => (j.membersAs? names).elim .wrong fun members => .ofMember (Keyed.lookup key members)

/-- the same place, where a text is to be -/
def text : Slot → Slot
  | .absent => .absent
  | .holds (.str s) => .holds (.str s)
  | .wrong | .holds _ => .wrong

/-- the text in a place -/
def text? : Slot → Option String
  | .holds (.str s) => some s
  | _ => none

/-- where there is a text, or nothing -/
def ofText : Option String → Slot
  | none => .absent
  | some s => .holds (.str s)

/-- what a reader makes of a place; it is not asked about null -/
def read {α : Type} (value : Decoder Json α) : Slot → Option (Option α)
  | .absent => some none
  | .wrong => none
  | .holds j => (value j).toOption.map some

section
variable {α : Type} {names : List String} {key : String} {j : Json}
  {members : List (String × Json)}

theorem member_of_some (hm : j.membersAs? names = some members) :
    (holds j).member names key = ofMember (Keyed.lookup key members) := by
  rw [member, hm]
  rfl

theorem member_of_none (hm : j.membersAs? names = none) : (holds j).member names key = wrong := by
  rw [member, hm]
  rfl

theorem text_cases (slot : Slot) :
    slot.text = absent ∨ slot.text = wrong ∨ ∃ s, slot.text = holds (.str s) := by
  unfold text
  split
  · exact .inl rfl
  · exact .inr (.inr ⟨_, rfl⟩)
  · exact .inr (.inl rfl)
  · exact .inr (.inl rfl)

theorem read_text_of_wrong {slot : Slot} (h : slot.text = wrong) :
    slot.read Decoder.text = none := by
  unfold text at h
  split at h
  · cases h
  · cases h
  · rfl
  · rename_i j hj
    cases j with
    | str s => exact absurd rfl (hj s)
    | _ => rfl

/-- otherwise there is no text or it is read -/
theorem read_text_of_ne_wrong {slot : Slot} (h : slot.text ≠ wrong) :
    slot.read Decoder.text = some slot.text.text? := by
  cases slot with
  | absent => rfl
  | wrong => exact absurd rfl h
  | holds j =>
    cases j with
    | str s => rfl
    | _ => exact absurd rfl h

theorem read_text_eq_some_iff {slot : Slot} {found : Option String} :
    slot.read Decoder.text = some found ↔ slot = ofText found := by
  cases slot with
  | absent => cases found <;> simp [read, ofText]
  | wrong => cases found <;> simp [read, ofText]
  | holds j =>
    have hread : (holds j).read Decoder.text = (Decoder.text j).toOption.map some := rfl
    rw [hread]
    cases j with
    | str s =>
      show some (some s) = some found ↔ _
      cases found <;> simp [ofText]
    | _ =>
      show none = some found ↔ _
      cases found <;> simp [ofText]

theorem eq_of_ofMember {found : Option Json} {d : Json} (h : ofMember found = holds d) :
    found = some d := by
  unfold ofMember at h
  split at h
  · cases h
  · cases h
  · cases h
    rfl

theorem holds_of_member {slot : Slot} {d : Json} (hm : slot.member names key = holds d) :
    ∃ j, slot = holds j := by
  cases slot with
  | holds j => exact ⟨j, rfl⟩
  | _ => cases hm

theorem holds_of_text {slot : Slot} {d : Json} (ht : slot.text = holds d) :
    ∃ j, slot = holds j := by
  cases slot with
  | holds j => exact ⟨j, rfl⟩
  | _ => cases ht

theorem ordered_of_member {d : Json} (h : j.Ordered)
    (hm : (holds j).member names key = holds d) : d.Ordered := by
  cases hmembers : j.membersAs? names with
  | none =>
    rw [member_of_none hmembers] at hm
    cases hm
  | some members =>
    rw [member_of_some hmembers] at hm
    have hlookup := eq_of_ofMember hm
    exact Json.ordered_of_membersAs? h hmembers (key, d) (Keyed.mem_of_lookup hlookup)

end

end Slot

/-! ## records from values -/

namespace Record

section
variable {α : Type} {members : List (String × Json)} (hd : (members.map Prod.fst).Nodup)

include hd

theorem keyed_field_toOption (key : String) (value : Decoder Json α) (unnamed unplaced : Option α) :
    ((field key value unnamed unplaced).keyed members).toOption
      = (Keyed.lookup key members).elim unnamed fun d => (value d).toOption := by
  have hfilter := Keyed.filter_of_nodup hd key
  cases hl : Keyed.lookup key members with
  | none =>
    rw [hl] at hfilter
    unfold field
    dsimp only
    rw [hfilter]
    cases unnamed <;> rfl
  | some d =>
    rw [hl] at hfilter
    rw [keyed_field value unnamed unplaced hfilter, toOption_mapError]
    rfl

theorem keyed_required_toOption (key : String) (value : Decoder Json α) :
    ((required key value).keyed members).toOption
      = (Keyed.lookup key members).bind fun d => (value d).toOption := by
  rw [required, keyed_field_toOption hd]
  cases Keyed.lookup key members <;> rfl

theorem keyed_optional_toOption (key : String) (value : Decoder Json α) :
    ((optional key value).keyed members).toOption
      = (Slot.ofMember (Keyed.lookup key members)).read value := by
  rw [optional, keyed_field_toOption hd]
  cases Keyed.lookup key members with
  | none => rfl
  | some d => cases d <;> first | rfl | exact toOption_map some _

theorem keyed_optionalAnywhere_toOption (key : String) (value : Decoder Json α) :
    ((optionalAnywhere key value).keyed members).toOption
      = (Slot.ofMember (Keyed.lookup key members)).read value :=
  keyed_optional_toOption hd key value

end

/-- a record is read from the members of a value, if the value can stand for it -/
theorem Named.read_toOption {α : Type} {r : Record Json α} {names : List String} (h : Named r names)
    (name : String) (j : Json) :
    (Record.read name r j).toOption
      = (j.membersAs? names).bind fun members => (r.keyed members).toOption := by
  cases j with
  | obj members =>
    have hfields : Document.fields name (Json.obj members) = .ok (.keyed members) := rfl
    rw [read_keyed r hfields, toOption_mapError]
    rfl
  | arr items =>
    have hread : (Record.read name r (.arr items)).toOption
        = (r.listed (fun place => .tooShort place name r.size) 0 items).toOption.bind fun a =>
            if a.2.isEmpty then some a.1 else none := by
      show (r.listed (fun place => .tooShort place name r.size) 0 items >>= _).toOption = _
      rw [toOption_bind]
      congr 1
      funext a
      obtain ⟨a, rest⟩ := a
      cases rest <;> rfl
    rw [hread, h.listed, Json.membersAs?]
    by_cases hlen : items.length = names.length
    · rw [if_pos (Nat.le_of_eq hlen.symm), if_pos hlen, ← hlen, List.drop_length, Option.bind_some]
      cases (r.keyed (names.zip items)).toOption <;> rfl
    · rw [if_neg hlen]
      by_cases hle : names.length ≤ items.length
      · -- items are left over
        have hrest : (items.drop names.length).isEmpty = false := by
          rw [List.isEmpty_eq_false_iff, ← List.length_pos_iff, List.length_drop]
          omega
        rw [if_pos hle]
        cases (r.keyed (names.zip items)).toOption with
        | none => rfl
        | some a =>
          rw [Option.map_some, Option.bind_some, hrest]
          rfl
      · rw [if_neg hle]
        rfl
  | _ => rfl

/-- nothing but the fields of a record is looked at in an object -/
theorem Named.read_obj_congr {α : Type} {r : Record Json α} {names : List String}
    (h : Named r names) (name : String) {members members' : List (String × Json)}
    (ho : (Json.obj members).Ordered) (ho' : (Json.obj members').Ordered)
    (hsame : ∀ key ∈ names, Keyed.lookup key members = Keyed.lookup key members') :
    Record.read name r (.obj members) = Record.read name r (.obj members') := by
  have hfields : Document.fields name (Json.obj members) = .ok (.keyed members) := rfl
  have hfields' : Document.fields name (Json.obj members') = .ok (.keyed members') := rfl
  rw [read_keyed r hfields, read_keyed r hfields']
  refine congrArg _ (h.keyed fun key hkey => ?_)
  rw [Keyed.filter_of_nodup ho.1.nodup, Keyed.filter_of_nodup ho'.1.nodup, hsame key hkey]

/-- a record of one field -/
theorem read_optional_toOption {α : Type} {j : Json} (h : j.Ordered) (name key : String)
    (value : Decoder Json α) :
    (Record.read name (optional key value) j).toOption
      = ((Slot.holds j).member [key] key).read value := by
  rw [(Named.optional key value).read_toOption]
  cases hm : j.membersAs? [key] with
  | none => rw [Slot.member_of_none hm]; rfl
  | some members =>
    have hd := Json.nodup_of_membersAs? (by simp) h hm
    rw [Slot.member_of_some hm, Option.bind_some, keyed_optional_toOption hd]

end Record

end ForgeRelay
