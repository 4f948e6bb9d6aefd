/-!
# Entries by name

Lists of named entries, read in two ways.  `lookup`, `put` and `erase` treat a list as a table that
keeps the order in which names came: a name that is there keeps its place.  `place` puts an entry
where its name sorts, by code point; a list is `Sorted` if its names increase, and then it is
settled by what `lookup` finds (`eq_of_lookup_eq`).  `StringMap` is a sorted list.
-/

namespace ForgeRelay

universe u

variable {β : Type u}

namespace Keyed

def lookup (key : String) : List (String × β) → Option β
  | [] => none
  | (k, v) :: rest => if key = k then some v else lookup key rest

/-- replaces the entry of that name, or adds one at the end -/
def put (key : String) (value : β) : List (String × β) → List (String × β)
  | [] => [(key, value)]
  | (k, v) :: rest => if key = k then (k, value) :: rest else (k, v) :: put key value rest

def erase (key : String) : List (String × β) → List (String × β)
  | [] => []
  | (k, v) :: rest => if key = k then erase key rest else (k, v) :: erase key rest

/-- replaces the entry of that name, or adds one before the first greater name -/
def place (key : String) (value : β) : List (String × β) → List (String × β)
  | [] => [(key, value)]
  | (k, v) :: rest =>
    if key = k then (key, value) :: rest
    else if key < k then (key, value) :: (k, v) :: rest
    else (k, v) :: place key value rest

def Sorted (entries : List (String × β)) : Prop := entries.Pairwise fun a b => a.1 < b.1

/-! ## lookup -/

theorem lookup_nil (key : String) : lookup key ([] : List (String × β)) = none := rfl

theorem lookup_cons_self (key : String) (v : β) (rest : List (String × β)) :
    lookup key ((key, v) :: rest) = some v := by
  simp [lookup]

theorem lookup_cons_of_ne {key k : String} (h : key ≠ k) (v : β) (rest : List (String × β)) :
    lookup key ((k, v) :: rest) = lookup key rest := by
  simp [lookup, h]

theorem mem_of_lookup {key : String} {v : β} {entries : List (String × β)}
    (h : lookup key entries = some v) : (key, v) ∈ entries := by
  induction entries with
  | nil => cases h
  | cons e rest ih =>
    obtain ⟨k, w⟩ := e
    by_cases hk : key = k
    · subst hk
      rw [lookup_cons_self] at h
      cases h
      exact List.mem_cons_self ..
    · rw [lookup_cons_of_ne hk] at h
      exact List.mem_cons_of_mem _ (ih h)

theorem lookup_eq_none {key : String} {entries : List (String × β)} :
    lookup key entries = none ↔ ∀ e ∈ entries, e.1 ≠ key := by
  induction entries with
  | nil => simp [lookup]
  | cons e rest ih =>
    obtain ⟨k, w⟩ := e
    by_cases hk : key = k
    · subst hk
      simp [lookup]
    · rw [lookup_cons_of_ne hk, ih]
      simp [Ne.symm hk]

theorem lookup_put (key other : String) (value : β) (entries : List (String × β)) :
    lookup other (put key value entries) =
      if other = key then some value else lookup other entries := by
  induction entries with
  | nil => simp [put, lookup]
  | cons e rest ih =>
    obtain ⟨k, w⟩ := e
    by_cases hk : key = k
    · subst hk
      by_cases ho : other = key <;> simp [put, lookup, ho]
    · simp only [put, hk, if_false, lookup, ih]
      by_cases ho : other = k
      · subst ho
        simp [Ne.symm hk]
      · simp [ho]

theorem lookup_erase (key other : String) (entries : List (String × β)) :
    lookup other (erase key entries) = if other = key then none else lookup other entries := by
  induction entries with
  | nil => simp [erase, lookup]
  | cons e rest ih =>
    obtain ⟨k, w⟩ := e
    by_cases hk : key = k
    · subst hk
      simp only [erase, if_true, ih, lookup]
      by_cases ho : other = key <;> simp [ho]
    · simp only [erase, hk, if_false, lookup, ih]
      by_cases ho : other = k
      · subst ho
        simp [Ne.symm hk]
      · simp [ho]

theorem lookup_place (key other : String) (value : β) (entries : List (String × β)) :
    lookup other (place key value entries) =
      if other = key then some value else lookup other entries := by
  induction entries with
  | nil => simp [place, lookup]
  | cons e rest ih =>
    obtain ⟨k, w⟩ := e
    by_cases hk : key = k
    · subst hk
      by_cases ho : other = key <;> simp [place, lookup, ho]
    · by_cases hlt : key < k
      · by_cases ho : other = key <;> simp [place, lookup, hk, hlt, ho]
      · simp only [place, hk, if_false, hlt, lookup, ih]
        by_cases ho : other = k
        · subst ho
          simp [Ne.symm hk]
        · simp [ho]

/-! ## sorted lists -/

theorem sorted_nil : Sorted ([] : List (String × β)) := List.Pairwise.nil

theorem Sorted.tail {e : String × β} {rest : List (String × β)} (h : Sorted (e :: rest)) :
    Sorted rest := (List.pairwise_cons.1 h).2

theorem Sorted.lt_of_mem {e : String × β} {rest : List (String × β)} (h : Sorted (e :: rest))
    {e' : String × β} (he : e' ∈ rest) : e.1 < e'.1 := (List.pairwise_cons.1 h).1 e' he

theorem String.lt_of_not_lt_of_ne {a b : String} (h : ¬ a < b) (hne : a ≠ b) : b < a := by
  by_cases h' : b < a
  · exact h'
  · exact absurd (String.le_antisymm (String.not_lt.1 h') (String.not_lt.1 h)) hne

theorem mem_place {key : String} {value : β} {entries : List (String × β)} {e : String × β}
    (h : e ∈ place key value entries) : e = (key, value) ∨ e ∈ entries := by
  induction entries with
  | nil => simpa [place] using h
  | cons f rest ih =>
    obtain ⟨k, w⟩ := f
    unfold place at h
    split at h
    · rcases List.mem_cons.1 h with rfl | h
      · exact .inl rfl
      · exact .inr (List.mem_cons_of_mem _ h)
    · split at h
      · rcases List.mem_cons.1 h with rfl | h
        · exact .inl rfl
        · exact .inr h
      · rcases List.mem_cons.1 h with rfl | h
        · exact .inr (List.mem_cons_self ..)
        · exact (ih h).imp id (List.mem_cons_of_mem _)

theorem sorted_place {key : String} {value : β} {entries : List (String × β)}
    (h : Sorted entries) : Sorted (place key value entries) := by
  induction entries with
  | nil => exact List.pairwise_cons.2 ⟨by simp, List.Pairwise.nil⟩
  | cons e rest ih =>
    obtain ⟨k, w⟩ := e
    unfold place
    split
    · rename_i hk
      subst hk
      exact List.pairwise_cons.2 ⟨fun _ he => h.lt_of_mem he, h.tail⟩
    · rename_i hk
      split
      · rename_i hlt
        refine List.pairwise_cons.2 ⟨fun e' he => ?_, h⟩
        rcases List.mem_cons.1 he with rfl | he
        · exact hlt
        · exact String.lt_trans hlt (h.lt_of_mem he)
      · rename_i hlt
        refine List.pairwise_cons.2 ⟨fun e' he => ?_, ih h.tail⟩
        rcases mem_place he with rfl | he
        · exact String.lt_of_not_lt_of_ne hlt hk
        · exact h.lt_of_mem he

theorem lookup_eq_some_of_mem {entries : List (String × β)} (h : Sorted entries) {key : String}
    {value : β} (hm : (key, value) ∈ entries) : lookup key entries = some value := by
  induction entries with
  | nil => cases hm
  | cons e rest ih =>
    obtain ⟨k, w⟩ := e
    rcases List.mem_cons.1 hm with he | he
    · cases he
      exact lookup_cons_self ..
    · have hlt : k < key := h.lt_of_mem he
      have hne : key ≠ k := fun hk => String.lt_irrefl k (hk ▸ hlt)
      rw [lookup_cons_of_ne hne]
      exact ih h.tail he

/-- a sorted list is settled by what is found in it -/
theorem eq_of_lookup_eq {a b : List (String × β)} (ha : Sorted a) (hb : Sorted b)
    (h : ∀ key, lookup key a = lookup key b) : a = b := by
  induction a generalizing b with
  | nil =>
    cases b with
    | nil => rfl
    | cons e rest =>
      have := h e.1
      rw [lookup_nil, lookup_cons_self] at this
      cases this
  | cons e a ih =>
    obtain ⟨k, v⟩ := e
    cases b with
    | nil =>
      have := h k
      rw [lookup_nil, lookup_cons_self] at this
      cases this
    | cons f b =>
      obtain ⟨l, w⟩ := f
      have hk : (k, v) ∈ (l, w) :: b := mem_of_lookup (by rw [← h k, lookup_cons_self])
      have hl : (l, w) ∈ (k, v) :: a := mem_of_lookup (by rw [h l, lookup_cons_self])
      have hkl : k = l := by
        rcases List.mem_cons.1 hk with he | he
        · cases he; rfl
        · rcases List.mem_cons.1 hl with he' | he'
          · cases he'; rfl
          · exact absurd (hb.lt_of_mem he) (String.lt_asymm (ha.lt_of_mem he'))
      subst hkl
      have hvw : v = w := by
        have := h k
        rw [lookup_cons_self, lookup_cons_self] at this
        exact Option.some.inj this
      subst hvw
      congr 1
      refine ih ha.tail hb.tail fun key => ?_
      by_cases hkey : key = k
      · subst hkey
        rw [lookup_eq_none.2 fun e he => ?_, lookup_eq_none.2 fun e he => ?_]
        · exact fun heq => String.lt_irrefl _ (heq ▸ hb.lt_of_mem he)
        · exact fun heq => String.lt_irrefl _ (heq ▸ ha.lt_of_mem he)
      · have := h key
        rwa [lookup_cons_of_ne hkey, lookup_cons_of_ne hkey] at this

end Keyed

/-! ## maps -/

/-- a map from strings, its entries in the order of their names -/
structure StringMap (β : Type u) where
  entries : List (String × β)
  sorted : Keyed.Sorted entries

namespace StringMap

instance [DecidableEq β] : DecidableEq (StringMap β) := fun a b =>
  decidable_of_iff (a.entries = b.entries)
    ⟨fun h => by cases a; cases b; cases h; rfl, fun h => h ▸ rfl⟩

def empty : StringMap β := ⟨[], Keyed.sorted_nil⟩

instance : Inhabited (StringMap β) := ⟨empty⟩

def get? (m : StringMap β) (key : String) : Option β := Keyed.lookup key m.entries

def insert (m : StringMap β) (key : String) (value : β) : StringMap β :=
  ⟨Keyed.place key value m.entries, Keyed.sorted_place m.sorted⟩

/-- the last of several entries of one name counts -/
def ofList (entries : List (String × β)) : StringMap β :=
  entries.foldl (fun m e => m.insert e.1 e.2) empty

theorem get?_insert (m : StringMap β) (key other : String) (value : β) :
    (m.insert key value).get? other = if other = key then some value else m.get? other :=
  Keyed.lookup_place key other value m.entries

theorem ext {a b : StringMap β} (h : ∀ key, a.get? key = b.get? key) : a = b := by
  obtain ⟨x, hx⟩ := a
  obtain ⟨y, hy⟩ := b
  have : x = y := Keyed.eq_of_lookup_eq hx hy h
  subst this
  rfl

end StringMap

end ForgeRelay
