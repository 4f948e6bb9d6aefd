import ForgeRelay.Json.Draft

/-!
# What is read

A value that was read has its fields in order, and is nested no deeper than a text may be.

* `Draft.json?_ordered_depth`   the value of a draft has both, within the room for nesting;
* `read?_ordered_depth`         and so has the value of a text.
-/

namespace ForgeRelay.Json

/-! ## fields in any order -/

theorem orderedFields_iff {fields : List (String × Json)} :
    OrderedFields fields ↔ ∀ f ∈ fields, f.2.Ordered := by
  induction fields with
  | nil => exact ⟨fun _ _ hf => (nomatch hf), fun _ => trivial⟩
  | cons f fields ih =>
    obtain ⟨k, j⟩ := f
    rw [List.forall_mem_cons]
    exact and_congr_right fun _ => ih

theorem orderedItems_iff {items : List Json} : OrderedItems items ↔ ∀ j ∈ items, j.Ordered := by
  induction items with
  | nil => exact ⟨fun _ _ hj => (nomatch hj), fun _ => trivial⟩
  | cons j items ih =>
    rw [List.forall_mem_cons]
    exact and_congr_right fun _ => ih

theorem depthFields_le_iff {fields : List (String × Json)} {n : Nat} :
    depthFields fields ≤ n ↔ ∀ f ∈ fields, f.2.depth ≤ n := by
  induction fields with
  | nil => exact ⟨fun _ _ hf => (nomatch hf), fun _ => Nat.zero_le n⟩
  | cons f fields ih =>
    obtain ⟨k, j⟩ := f
    rw [List.forall_mem_cons, ← ih]
    exact Nat.max_le

theorem mem_foldl_place {new old : List (String × Json)} {f : String × Json}
    (hf : f ∈ new.foldl (fun fs f => Keyed.place f.1 f.2 fs) old) : f ∈ old ∨ f ∈ new := by
  induction new generalizing old with
  | nil => exact .inl hf
  | cons e new ih =>
    rcases ih hf with hf | hf
    · rcases Keyed.mem_place hf with rfl | hf
      · exact .inr (List.mem_cons_self ..)
      · exact .inl hf
    · exact .inr (List.mem_cons_of_mem _ hf)

/-- placing fields brings them in order, and nests them no deeper -/
theorem ofFields_ordered_depth {fields : List (String × Json)} {n : Nat}
    (ho : OrderedFields fields) (hd : depthFields fields ≤ n) :
    (ofFields fields).Ordered ∧ depth (ofFields fields) ≤ n + 1 := by
  have hmem : ∀ f ∈ fields.foldl (fun fs f => Keyed.place f.1 f.2 fs) [], f ∈ fields := by
    intro f hf
    rcases mem_foldl_place hf with hf | hf
    · cases hf
    · exact hf
  refine ⟨⟨sorted_foldl_place fields [] Keyed.sorted_nil, ?_⟩, Nat.succ_le_succ ?_⟩
  · exact orderedFields_iff.2 fun f hf => orderedFields_iff.1 ho f (hmem f hf)
  · exact depthFields_le_iff.2 fun f hf => depthFields_le_iff.1 hd f (hmem f hf)

/-! ## drafts -/

namespace Draft

mutual
theorem json?_ordered_depth : ∀ (room : Nat) (d : Draft) {j : Json}, d.json? room = some j →
    j.Ordered ∧ depth j ≤ room
  | room, .null, j, h => by
    cases h
    exact ⟨trivial, Nat.zero_le _⟩
  | room, .bool _, j, h => by
    cases h
    exact ⟨trivial, Nat.zero_le _⟩
  | room, .num n, j, h => by
    obtain ⟨_, -, rfl⟩ := Option.map_eq_some_iff.1 h
    exact ⟨trivial, Nat.zero_le _⟩
  | room, .str s, j, h => by
    obtain ⟨_, -, rfl⟩ := Option.map_eq_some_iff.1 h
    exact ⟨trivial, Nat.zero_le _⟩
  | room, .arr items, j, h => by
    unfold json? at h
    split at h
    · cases h
    · rename_i hroom
      obtain ⟨js, hjs, rfl⟩ := Option.map_eq_some_iff.1 h
      obtain ⟨ho, hd⟩ := items?_ordered_depth (room - 1) items hjs
      refine ⟨ho, ?_⟩
      show depthItems js + 1 ≤ room
      omega
  | room, .obj fields, j, h => by
    unfold json? at h
    split at h
    · cases h
    · rename_i hroom
      obtain ⟨fs, hfs, rfl⟩ := Option.map_eq_some_iff.1 h
      obtain ⟨ho, hd⟩ := fields?_ordered_depth (room - 1) fields hfs
      obtain ⟨ho, hd⟩ := ofFields_ordered_depth ho hd
      exact ⟨ho, by omega⟩

theorem items?_ordered_depth : ∀ (room : Nat) (ds : List Draft) {js : List Json},
    items? room ds = some js → OrderedItems js ∧ depthItems js ≤ room
  | room, [], js, h => by
    cases h
    exact ⟨trivial, Nat.zero_le _⟩
  | room, d :: ds, js, h => by
    unfold items? at h
    split at h
    · rename_i j js' hj hjs
      cases h
      obtain ⟨ho, hd⟩ := json?_ordered_depth room d hj
      obtain ⟨hos, hds⟩ := items?_ordered_depth room ds hjs
      exact ⟨⟨ho, hos⟩, Nat.max_le.2 ⟨hd, hds⟩⟩
    · cases h

theorem fields?_ordered_depth : ∀ (room : Nat) (ds : List (Option String × Draft))
    {fs : List (String × Json)}, fields? room ds = some fs →
    OrderedFields fs ∧ depthFields fs ≤ room
  | room, [], fs, h => by
    cases h
    exact ⟨trivial, Nat.zero_le _⟩
  | room, (key, d) :: ds, fs, h => by
    unfold fields? at h
    split at h
    · rename_i k j fs' _ hj hfs
      cases h
      obtain ⟨ho, hd⟩ := json?_ordered_depth room d hj
      obtain ⟨hos, hds⟩ := fields?_ordered_depth room ds hfs
      exact ⟨⟨ho, hos⟩, Nat.max_le.2 ⟨hd, hds⟩⟩
    · cases h
end

end Draft

theorem read?_ordered_depth {bs : Bytes} {j : Json} (h : read? bs = some j) :
    j.Ordered ∧ depth j ≤ maxDepth := by
  obtain ⟨d, -, hd⟩ := Option.bind_eq_some_iff.1 h
  exact d.json?_ordered_depth maxDepth hd

end ForgeRelay.Json
