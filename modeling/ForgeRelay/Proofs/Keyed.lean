import ForgeRelay.Keyed

/-!
# Sorted entries

A search in a sorted list finds the least name.  Objects and maps are built by placing entries one
after the other; entries that are already sorted each go to the end, so a sorted list is built again
as it is.

* `Keyed.find?_eq_some_iff_least`   what a search in a sorted list finds;
* `Keyed.filter_of_nodup`           the entries of one name in a list of different names;
* `Keyed.foldl_place_of_sorted`     placing sorted entries after smaller ones appends them;
* `StringMap.ofList_entries`        a map is built again from its entries.
-/

namespace ForgeRelay

universe u

variable {β : Type u}

namespace Keyed

/-! ## searching -/

/-- in a sorted list the first entry of a kind is the one with the least key -/
theorem find?_eq_some_iff_least {entries : List (String × β)} (h : Sorted entries)
    (p : String × β → Bool) (e : String × β) :
    entries.find? p = some e ↔
      (e ∈ entries ∧ p e = true) ∧ ∀ f ∈ entries, p f = true → e.1 ≤ f.1 := by
  induction entries with
  | nil => simp
  | cons g rest ih =>
    by_cases hg : p g = true
    · rw [List.find?_cons_of_pos hg]
      constructor
      · intro he
        cases he
        refine ⟨⟨List.mem_cons_self .., hg⟩, fun f hf _ => ?_⟩
        rcases List.mem_cons.1 hf with rfl | hf
        · exact String.le_refl _
        · exact String.not_lt.1 (String.lt_asymm (h.lt_of_mem hf))
      · rintro ⟨⟨he, -⟩, hleast⟩
        rcases List.mem_cons.1 he with rfl | he
        · rfl
        · exact absurd (h.lt_of_mem he)
            (String.not_lt.2 (hleast g (List.mem_cons_self ..) hg))
    · rw [List.find?_cons_of_neg hg, ih h.tail]
      constructor
      · rintro ⟨⟨he, hp⟩, hleast⟩
        refine ⟨⟨List.mem_cons_of_mem _ he, hp⟩, fun f hf hpf => ?_⟩
        rcases List.mem_cons.1 hf with rfl | hf
        · exact absurd hpf hg
        · exact hleast f hf hpf
      · rintro ⟨⟨he, hp⟩, hleast⟩
        rcases List.mem_cons.1 he with rfl | he
        · exact absurd hp hg
        · exact ⟨⟨he, hp⟩, fun f hf => hleast f (List.mem_cons_of_mem _ hf)⟩

/-- in a list of different names every entry is found -/
theorem lookup_of_nodup {key : String} {value : β} {entries : List (String × β)}
    (hd : (entries.map Prod.fst).Nodup) (h : (key, value) ∈ entries) :
    lookup key entries = some value := by
  induction entries with
  | nil => cases h
  | cons e rest ih =>
    obtain ⟨k, v⟩ := e
    rw [List.map_cons, List.nodup_cons] at hd
    rcases List.mem_cons.1 h with he | he
    · cases he
      exact lookup_cons_self ..
    · have hne : key ≠ k := fun hk => hd.1 (List.mem_map.2 ⟨_, he, hk⟩)
      rw [lookup_cons_of_ne hne]
      exact ih hd.2 he

/-- in a list of different names an entry is found whether the first one or all are looked for -/
theorem filter_of_nodup {entries : List (String × β)} (hd : (entries.map Prod.fst).Nodup)
    (key : String) :
    entries.filter (·.1 = key) = ((lookup key entries).map (key, ·)).toList := by
  induction entries with
  | nil => rfl
  | cons e rest ih =>
    obtain ⟨k, v⟩ := e
    rw [List.map_cons, List.nodup_cons] at hd
    by_cases hk : k = key
    · subst hk
      have hnone : lookup k rest = none :=
        lookup_eq_none.2 fun e he hek => hd.1 (List.mem_map.2 ⟨e, he, hek⟩)
      rw [List.filter_cons_of_pos (by simp), ih hd.2, hnone, lookup_cons_self]
      rfl
    · rw [List.filter_cons_of_neg (by simpa using hk), ih hd.2, lookup_cons_of_ne (Ne.symm hk)]

theorem Sorted.nodup {entries : List (String × β)} (h : Sorted entries) :
    (entries.map Prod.fst).Nodup := by
  refine List.pairwise_map.2 (h.imp fun hlt heq => ?_)
  rw [heq] at hlt
  exact String.lt_irrefl _ hlt

/-! ## putting -/

theorem mem_put {key : String} {value : β} {entries : List (String × β)} {e : String × β}
    (h : e ∈ put key value entries) : e = (key, value) ∨ e ∈ entries := by
  induction entries with
  | nil => exact .inl (List.mem_singleton.1 h)
  | cons f rest ih =>
    obtain ⟨k, w⟩ := f
    unfold put at h
    split at h
    · rename_i hk
      rcases List.mem_cons.1 h with rfl | h
      · exact .inl (by rw [hk])
      · exact .inr (List.mem_cons_of_mem _ h)
    · rcases List.mem_cons.1 h with rfl | h
      · exact .inr (List.mem_cons_self ..)
      · exact (ih h).imp id (List.mem_cons_of_mem _)

/-- what is put takes the place of the entry that is found, and of no other -/
theorem mem_put_of_mem {key : String} (value : β) {entries : List (String × β)} {e : String × β}
    (h : e ∈ entries) :
    e ∈ put key value entries ∨ (key = e.1 ∧ lookup key entries = some e.2) := by
  induction entries with
  | nil => cases h
  | cons f rest ih =>
    obtain ⟨k, w⟩ := f
    unfold put
    by_cases hk : key = k
    · rw [if_pos hk]
      rcases List.mem_cons.1 h with rfl | h
      · exact .inr ⟨hk, hk ▸ lookup_cons_self ..⟩
      · exact .inl (List.mem_cons_of_mem _ h)
    · rw [if_neg hk, lookup_cons_of_ne hk]
      rcases List.mem_cons.1 h with rfl | h
      · exact .inl (List.mem_cons_self ..)
      · exact (ih h).imp_left (List.mem_cons_of_mem _)

/-! ## placing -/

/-- a name after all others goes to the end -/
theorem place_of_forall_lt {key : String} (value : β) {entries : List (String × β)}
    (h : ∀ e ∈ entries, e.1 < key) : place key value entries = entries ++ [(key, value)] := by
  induction entries with
  | nil => rfl
  | cons e rest ih =>
    obtain ⟨k, v⟩ := e
    have hk : k < key := h (k, v) (List.mem_cons_self ..)
    have hne : key ≠ k := by
      rintro rfl
      exact String.lt_irrefl _ hk
    rw [place, if_neg hne, if_neg (String.lt_asymm hk),
      ih fun e he => h e (List.mem_cons_of_mem _ he)]
    rfl

theorem foldl_place_of_sorted {new old : List (String × β)} (h : Sorted (old ++ new)) :
    new.foldl (fun fs f => place f.1 f.2 fs) old = old ++ new := by
  induction new generalizing old with
  | nil => rw [List.append_nil, List.foldl_nil]
  | cons f new ih =>
    have hlt : ∀ e ∈ old, e.1 < f.1 := fun e he =>
      (List.pairwise_append.1 h).2.2 e he f (List.mem_cons_self ..)
    rw [List.append_cons] at h ⊢
    rw [List.foldl_cons, place_of_forall_lt f.2 hlt]
    exact ih h

end Keyed

/-! ## maps -/

namespace StringMap

theorem mem_entries_iff (m : StringMap β) (key : String) (value : β) :
    (key, value) ∈ m.entries ↔ m.get? key = some value :=
  ⟨fun h => Keyed.lookup_eq_some_of_mem m.sorted h, Keyed.mem_of_lookup⟩

theorem entries_foldl_insert (es : List (String × β)) (m : StringMap β) :
    (es.foldl (fun m e => m.insert e.1 e.2) m).entries
      = es.foldl (fun fs f => Keyed.place f.1 f.2 fs) m.entries := by
  induction es generalizing m with
  | nil => rfl
  | cons e es ih => exact ih (m.insert e.1 e.2)

theorem ofList_entries (m : StringMap β) : ofList m.entries = m := by
  have h : (ofList m.entries).entries = m.entries := by
    refine (entries_foldl_insert m.entries empty).trans ?_
    rw [Keyed.foldl_place_of_sorted]
    · rfl
    · exact m.sorted
  exact ext fun key => congrArg (Keyed.lookup key) h

end StringMap

end ForgeRelay
