import ForgeRelay.Proofs.Json.Reading

/-!
# Written values are read back

A value whose numbers are integers of the exact range is written and read again: first to the draft
`Draft.ofJson` of the value, by recursion on the value, and from the draft to the value if it has
room enough.

* `Draft.value?_write`   a written value is read over, up to what `Stops` a numeral;
* `Draft.read?_write`    the draft of a whole text;
* `read?_write`          **a written value is read back exactly if it is nested at most 127 deep.**
-/

namespace ForgeRelay.Json

theorem integralItems_iff {js : List Json} : IntegralItems js ↔ ∀ j ∈ js, j.Integral := by
  induction js with
  | nil => exact iff_of_true trivial (List.forall_mem_nil _)
  | cons j js ih =>
    rw [List.forall_mem_cons, ← ih]
    exact Iff.rfl

theorem integralFields_iff {fs : List (String × Json)} :
    IntegralFields fs ↔ ∀ f ∈ fs, f.2.Integral := by
  induction fs with
  | nil => exact iff_of_true trivial (List.forall_mem_nil _)
  | cons f fs ih =>
    rw [List.forall_mem_cons, ← ih]
    exact Iff.rfl

namespace Draft

/-! ## what is written -/

/-- a written value starts with no blank and does not close a list -/
theorem head_write {j : Json} (h : j.Integral) :
    ∃ b bs, write j = b :: bs ∧ isSpace b = false ∧ b ≠ Ascii.closeBracket := by
  match j, h with
  | .null, _ => exact ⟨_, _, rfl, by decide, by decide⟩
  | .bool true, _ => exact ⟨_, _, rfl, by decide, by decide⟩
  | .bool false, _ => exact ⟨_, _, rfl, by decide, by decide⟩
  | .num (.int n), _ =>
    obtain ⟨b, bs, hw, hb⟩ := head_writeInt n
    exact ⟨b, bs, hw, isSpace_numeral_head hb, ne_of_numeral_head hb (by decide) (by decide)⟩
  | .num (.double x), h => exact h.elim
  | .str s, _ => exact ⟨_, _, rfl, by decide, by decide⟩
  | .arr [], _ => exact ⟨_, _, rfl, by decide, by decide⟩
  | .arr (j :: js), _ => exact ⟨_, _, rfl, by decide, by decide⟩
  | .obj [], _ => exact ⟨_, _, rfl, by decide, by decide⟩
  | .obj ((k, j) :: fs), _ => exact ⟨_, _, rfl, by decide, by decide⟩

theorem stops_writeItems (js : List Json) (rest : Bytes) : Stops (writeItems js ++ rest) := by
  cases js with
  | nil => exact ⟨by decide, by decide, by decide, by decide⟩
  | cons j js => exact ⟨by decide, by decide, by decide, by decide⟩

theorem stops_writeFields (fs : List (String × Json)) (rest : Bytes) :
    Stops (writeFields fs ++ rest) := by
  cases fs with
  | nil => exact ⟨by decide, by decide, by decide, by decide⟩
  | cons f fs => exact ⟨by decide, by decide, by decide, by decide⟩

theorem length_lt_writeItems (js : List Json) : js.length < (writeItems js).length := by
  induction js with
  | nil => decide
  | cons j js ih =>
    show js.length + 1 < (Ascii.comma :: (write j ++ writeItems js)).length
    rw [List.length_cons, List.length_append]
    omega

theorem length_lt_writeFields (fs : List (String × Json)) :
    fs.length < (writeFields fs).length := by
  induction fs with
  | nil => decide
  | cons f fs ih =>
    show fs.length + 1 < (Ascii.comma ::
      (writeString f.1 ++ Ascii.colon :: (write f.2 ++ writeFields fs))).length
    rw [List.length_cons, List.length_append, List.length_cons, List.length_append]
    omega

/-! ## reading over a written value -/

mutual
theorem value?_write : ∀ (j : Json) (fuel : Nat) (rest : Bytes), j.Integral → depth j < fuel →
    Stops rest → value? fuel (write j ++ rest) = some (ofJson j, rest)
  | _, 0, _, _, hd, _ => absurd hd (Nat.not_lt_zero _)
  | .null, fuel + 1, rest, _, _, _ => rfl
  | .bool true, fuel + 1, rest, _, _, _ => rfl
  | .bool false, fuel + 1, rest, _, _, _ => rfl
  | .num (.int n), fuel + 1, rest, h, _, hr => by
    obtain ⟨b, bs, hw, hb⟩ := head_writeInt n
    show value? (fuel + 1) (writeInt n ++ rest) = _
    rw [hw, List.cons_append, value?_numeral fuel hb, ← List.cons_append, ← hw,
      numeral?_writeInt n hr, Option.map_some, number?_ofInt h]
    rfl
  | .num (.double x), fuel + 1, rest, h, _, _ => h.elim
  | .str s, fuel + 1, rest, _, _, _ => by
    show value? (fuel + 1) (writeString s ++ rest) = _
    rw [writeString_append, value?_quote, stringBody?_escaped]
    rfl
  | .arr [], fuel + 1, rest, _, _, _ => rfl
  | .arr (j :: js), fuel + 1, rest, h, hd, _ => by
    have hd' : max (depth j) (depthItems js) + 1 < fuel + 1 := hd
    have hj := value?_write j fuel (writeItems js ++ rest) h.1 (by omega)
      (stops_writeItems js rest)
    obtain ⟨b, bs, hw, hs, hb⟩ := head_write h.1
    have hl : js.length < (bs ++ (writeItems js ++ rest)).length + 1 := by
      have := length_lt_writeItems js
      rw [List.length_append, List.length_append]
      omega
    show value? (fuel + 1) (Ascii.openBracket :: (write j ++ writeItems js) ++ rest) = _
    rw [List.cons_append, List.append_assoc, hw, List.cons_append, value?_openBracket fuel hs hb,
      ← List.cons_append, ← hw,
      commaList?_writeItems js _ fuel (ofJson j) _ rest h.2 (by omega) hl hj]
    rfl
  | .obj [], fuel + 1, rest, _, _, _ => rfl
  | .obj ((k, j) :: fs), fuel + 1, rest, h, hd, _ => by
    have hd' : max (depth j) (depthFields fs) + 1 < fuel + 1 := hd
    have hj := value?_write j fuel (writeFields fs ++ rest) h.1 (by omega)
      (stops_writeFields fs rest)
    have hf := field?_writeString (k := k) hj
    have hl : fs.length < ((Utf8.encode k).flatMap escapeOctet
        ++ Ascii.quote :: Ascii.colon :: (write j ++ (writeFields fs ++ rest))).length + 1 := by
      have := length_lt_writeFields fs
      simp only [List.length_append, List.length_cons]
      omega
    show value? (fuel + 1) (Ascii.openBrace ::
      (writeString k ++ Ascii.colon :: (write j ++ writeFields fs)) ++ rest) = _
    rw [List.cons_append, List.append_assoc, List.cons_append, List.append_assoc,
      writeString_append, value?_openBrace, ← writeString_append,
      commaList?_writeFields fs _ fuel (some k, ofJson j) _ rest h.2 (by omega) hl hf]
    rfl

/-- the items that are left after one that is read -/
theorem commaList?_writeItems : ∀ (js : List Json) (fuel room : Nat) (a : Draft)
    (front rest : Bytes), IntegralItems js → depthItems js < room → js.length < fuel →
    value? room front = some (a, writeItems js ++ rest) →
    commaList? Ascii.closeBracket (value? room) fuel front = some (a :: ofItems js, rest)
  | _, 0, _, _, _, _, _, _, hf, _ => absurd hf (Nat.not_lt_zero _)
  | [], fuel + 1, room, a, front, rest, _, _, _, hv => commaList?_last (by decide) hv fuel
  | j :: js, fuel + 1, room, a, front, rest, h, hd, hf, hv => by
    have hd' : max (depth j) (depthItems js) < room := hd
    have hj := value?_write j room (writeItems js ++ rest) h.1 (by omega) (stops_writeItems js rest)
    have hv' : value? room front
        = some (a, Ascii.comma :: (write j ++ (writeItems js ++ rest))) := by
      rw [hv, ← List.append_assoc]
      rfl
    exact commaList?_comma (by decide) hv'
      (commaList?_writeItems js fuel room (ofJson j) _ rest h.2 (by omega)
        (Nat.lt_of_succ_lt_succ hf) hj)

theorem commaList?_writeFields : ∀ (fs : List (String × Json)) (fuel room : Nat)
    (a : Option String × Draft) (front rest : Bytes), IntegralFields fs →
    depthFields fs < room → fs.length < fuel →
    field? (value? room) front = some (a, writeFields fs ++ rest) →
    commaList? Ascii.closeBrace (field? (value? room)) fuel front = some (a :: ofFields fs, rest)
  | _, 0, _, _, _, _, _, _, hf, _ => absurd hf (Nat.not_lt_zero _)
  | [], fuel + 1, room, a, front, rest, _, _, _, hv => commaList?_last (by decide) hv fuel
  | (k, j) :: fs, fuel + 1, room, a, front, rest, h, hd, hf, hv => by
    have hd' : max (depth j) (depthFields fs) < room := hd
    have hj := value?_write j room (writeFields fs ++ rest) h.1 (by omega)
      (stops_writeFields fs rest)
    have hv' : field? (value? room) front = some (a, Ascii.comma ::
        (writeString k ++ Ascii.colon :: (write j ++ (writeFields fs ++ rest)))) := by
      rw [hv]
      show some (a, Ascii.comma ::
        (writeString k ++ Ascii.colon :: (write j ++ writeFields fs)) ++ rest) = _
      rw [List.cons_append, List.append_assoc, List.cons_append, List.append_assoc]
    exact commaList?_comma (by decide) hv'
      (commaList?_writeFields fs fuel room (some k, ofJson j) _ rest h.2 (by omega)
        (Nat.lt_of_succ_lt_succ hf) (field?_writeString hj))
end

/-! ## whole texts -/

mutual
theorem depth_le_length_write : ∀ j : Json, depth j ≤ (write j).length
  | .null | .bool _ | .num _ | .str _ => Nat.zero_le _
  | .arr [] => by decide
  | .arr (j :: js) => by
    have hj := depth_le_length_write j
    have hjs := depthItems_le_length_writeItems js
    show max (depth j) (depthItems js) + 1
      ≤ (Ascii.openBracket :: (write j ++ writeItems js)).length
    rw [List.length_cons, List.length_append]
    omega
  | .obj [] => by decide
  | .obj ((k, j) :: fs) => by
    have hj := depth_le_length_write j
    have hfs := depthFields_le_length_writeFields fs
    show max (depth j) (depthFields fs) + 1 ≤ (Ascii.openBrace ::
      (writeString k ++ Ascii.colon :: (write j ++ writeFields fs))).length
    rw [List.length_cons, List.length_append, List.length_cons, List.length_append]
    omega

theorem depthItems_le_length_writeItems : ∀ js : List Json,
    depthItems js ≤ (writeItems js).length
  | [] => Nat.zero_le _
  | j :: js => by
    have hj := depth_le_length_write j
    have hjs := depthItems_le_length_writeItems js
    show max (depth j) (depthItems js) ≤ (Ascii.comma :: (write j ++ writeItems js)).length
    rw [List.length_cons, List.length_append]
    omega

theorem depthFields_le_length_writeFields : ∀ fs : List (String × Json),
    depthFields fs ≤ (writeFields fs).length
  | [] => Nat.zero_le _
  | (k, j) :: fs => by
    have hj := depth_le_length_write j
    have hfs := depthFields_le_length_writeFields fs
    show max (depth j) (depthFields fs) ≤ (Ascii.comma ::
      (writeString k ++ Ascii.colon :: (write j ++ writeFields fs))).length
    rw [List.length_cons, List.length_append, List.length_cons, List.length_append]
    omega
end

theorem read?_write {j : Json} (h : j.Integral) : read? (write j) = some (ofJson j) := by
  have hd := depth_le_length_write j
  have hv := value?_write j ((write j).length + 1) [] h (by omega) trivial
  rw [List.append_nil] at hv
  unfold read?
  rw [hv]
  rfl

end Draft

/-- **A written value is read back if it is nested at most 127 deep**, and not read at all if it is
nested deeper. -/
theorem read?_write {j : Json} (ho : j.Ordered) (hi : j.Integral) :
    read? (write j) = if depth j ≤ maxDepth then some j else none := by
  unfold read?
  rw [Draft.read?_write hi]
  exact Draft.json?_ofJson maxDepth j ho

end ForgeRelay.Json
