import ForgeRelay.Proofs.Webhook.HeaderNames
import Mathlib.Data.List.Induction

/-!
# Headers of envelopes

A request brings header fields: names in any letter case with values, and names may repeat.  Whoever
takes it in holds them in a map of headers.  The map keeps names in lower case and the values of one
name in the order in which they came; nothing is known of the order of different names (`Holds`).
An envelope made from such a map has all values of the request, each under its name and in its
place, and no more than these.

* `getD_collectHeaders`, `collectHeaders_ne_nil`   what is stored under a key;
* `Holds.values`                                   the values of a key are those of a name;
* `Rearranged.values_eq`                           changes of a request that do not count;
* `headers_lossless`                               what an envelope has of the headers of a request.
-/

namespace ForgeRelay

namespace Http

/-- the header fields of a request as they come, with names in any letter case -/
abbrev Fields := List (String × Bytes)

/-- the values of a name in any letter case, as they come -/
def Fields.values (fields : Fields) (name : String) : List Bytes :=
  (fields.filter fun f => lowerName f.1 = lowerName name).map Prod.snd

/-- a map of headers holds the fields of a request under their names in lower case; those of one
name are in the order in which they came -/
def Headers.Holds (headers : Headers) (fields : Fields) : Prop :=
  ∀ name, (headers.filter fun h => h.1 = name).map Prod.snd =
    (fields.filter fun f => lowerName f.1 = name).map Prod.snd

/-- the fields differ in the letter case of names and in the order of different names at most -/
inductive Rearranged : Fields → Fields → Prop
  | nil : Rearranged [] []
  | cons {a b : String} {v : Bytes} {fs gs : Fields} : lowerName a = lowerName b →
      Rearranged fs gs → Rearranged ((a, v) :: fs) ((b, v) :: gs)
  | swap {f g : String × Bytes} {fs : Fields} : lowerName f.1 ≠ lowerName g.1 →
      Rearranged (f :: g :: fs) (g :: f :: fs)
  | trans {fs gs hs : Fields} : Rearranged fs gs → Rearranged gs hs → Rearranged fs hs

theorem Fields.values_cons (f : String × Bytes) (fs : Fields) (name : String) :
    Fields.values (f :: fs) name =
      if lowerName f.1 = lowerName name then f.2 :: Fields.values fs name
      else Fields.values fs name := by
  unfold Fields.values
  by_cases h : lowerName f.1 = lowerName name
  · rw [List.filter_cons_of_pos (by simpa using h), if_pos h, List.map_cons]
  · rw [List.filter_cons_of_neg (by simpa using h), if_neg h]

theorem Rearranged.values_eq {fs gs : Fields} (h : Rearranged fs gs) (name : String) :
    fs.values name = gs.values name := by
  induction h with
  | nil => rfl
  | cons hname _ ih => rw [Fields.values_cons, Fields.values_cons, hname, ih]
  | swap hne =>
    simp only [Fields.values_cons]
    split
    · rename_i hf
      split
      · rename_i hg
        exact absurd (hf.trans hg.symm) hne
      · rfl
    · rfl
  | trans _ _ ih ih' => exact ih.trans ih'

/-- a map that keeps all fields in the order in which they came holds them -/
theorem holds_map_lowerName (fields : Fields) :
    Headers.Holds (fields.map fun f => (lowerName f.1, f.2)) fields := by
  intro name
  rw [List.filter_map, List.map_map]
  rfl

section
variable {headers : Headers} {fields : Fields}

/-- every header comes from a field -/
theorem Headers.Holds.exists_field (h : headers.Holds fields) {e : String × Bytes}
    (he : e ∈ headers) : ∃ f ∈ fields, lowerName f.1 = e.1 := by
  have hmem : e.2 ∈ (headers.filter fun x => x.1 = e.1).map Prod.snd :=
    List.mem_map_of_mem (List.mem_filter.2 ⟨he, decide_eq_true rfl⟩)
  rw [h e.1] at hmem
  obtain ⟨f, hf, -⟩ := List.mem_map.1 hmem
  obtain ⟨hmem, hname⟩ := List.mem_filter.1 hf
  exact ⟨f, hmem, of_decide_eq_true hname⟩

/-- the headers that are spelled as a name is are the fields of that name -/
theorem Headers.Holds.values (h : headers.Holds fields) (name : String) :
    (headers.filter fun e => canonicalName e.1 = canonicalName name).map Prod.snd =
      fields.values name := by
  have hsame : (headers.filter fun e => canonicalName e.1 = canonicalName name) =
      headers.filter fun e => e.1 = lowerName name := by
    refine List.filter_congr fun e he => decide_eq_decide.2 ?_
    obtain ⟨f, -, hf⟩ := h.exists_field he
    rw [canonicalName_eq_iff, ← hf, lowerName_lowerName]
  rw [hsame, h (lowerName name)]
  rfl

end

end Http

namespace Envelope

open Http

/-! ## what is stored -/

/-- the texts of the values that are spelled as the key is -/
def valuesUnder (key : String) (headers : Headers) : List String :=
  ((headers.filter fun h => canonicalName h.1 = key).map Prod.snd).map Utf8.lossy

theorem valuesUnder_concat (key : String) (headers : Headers) (h : String × Bytes) :
    valuesUnder key (headers ++ [h]) =
      valuesUnder key headers ++ if canonicalName h.1 = key then [Utf8.lossy h.2] else [] := by
  unfold valuesUnder
  rw [List.filter_append, List.map_append, List.map_append]
  by_cases hkey : canonicalName h.1 = key
  · rw [if_pos hkey, List.filter_cons_of_pos (by simpa using hkey)]
    rfl
  · rw [if_neg hkey, List.filter_cons_of_neg (by simpa using hkey)]
    rfl

theorem collectHeaders_concat (headers : Headers) (h : String × Bytes) :
    collectHeaders (headers ++ [h]) =
      addHeader (collectHeaders headers) h.1 (Utf8.lossy h.2) := by
  unfold collectHeaders
  rw [List.foldl_append]
  rfl

theorem get?_addHeader (header : StringMap (List String)) (name value key : String) :
    (addHeader header name value).get? key =
      if key = canonicalName name then some ((header.get? key).getD [] ++ [value])
      else header.get? key := by
  unfold addHeader
  rw [StringMap.get?_insert]
  by_cases hkey : key = canonicalName name
  · rw [if_pos hkey, if_pos hkey, hkey]
  · rw [if_neg hkey, if_neg hkey]

theorem getD_collectHeaders (headers : Headers) (key : String) :
    ((collectHeaders headers).get? key).getD [] = valuesUnder key headers := by
  induction headers using List.reverseRecOn with
  | nil => rfl
  | append_singleton headers h ih =>
    rw [collectHeaders_concat, get?_addHeader, valuesUnder_concat, ← ih]
    by_cases hkey : canonicalName h.1 = key
    · rw [if_pos hkey.symm, if_pos hkey, Option.getD_some]
    · rw [if_neg (Ne.symm hkey), if_neg hkey, List.append_nil]

/-- no key is there without a value -/
theorem collectHeaders_ne_nil (headers : Headers) (key : String) :
    (collectHeaders headers).get? key ≠ some [] := by
  induction headers using List.reverseRecOn with
  | nil => exact nofun
  | append_singleton headers h ih =>
    rw [collectHeaders_concat, get?_addHeader]
    split
    · intro hnil
      exact List.append_ne_nil_of_right_ne_nil _ (List.cons_ne_nil _ _) (Option.some.inj hnil)
    · exact ih

theorem eq_of_getD_eq {o o' : Option (List String)} (ho : o ≠ some []) (ho' : o' ≠ some [])
    (h : o.getD [] = o'.getD []) : o = o' := by
  cases o with
  | none =>
    cases o' with
    | none => rfl
    | some vs => exact absurd (congrArg some h.symm) ho'
  | some us =>
    cases o' with
    | none => exact absurd (congrArg some h) ho
    | some vs => exact congrArg some h

/-- headers with the same values under every name are stored alike -/
theorem collectHeaders_congr {headers headers' : Headers}
    (h : ∀ name, valuesUnder (canonicalName name) headers =
      valuesUnder (canonicalName name) headers') :
    collectHeaders headers = collectHeaders headers' := by
  have hnone : ∀ (hs : Headers) (key : String), (¬ ∃ name, canonicalName name = key) →
      valuesUnder key hs = [] := by
    intro hs key hkey
    have hfilter : hs.filter (fun e => canonicalName e.1 = key) = [] :=
      List.filter_eq_nil_iff.2 fun e _ he => hkey ⟨e.1, of_decide_eq_true he⟩
    rw [valuesUnder, hfilter]
    rfl
  refine StringMap.ext fun key => ?_
  refine eq_of_getD_eq (collectHeaders_ne_nil _ key) (collectHeaders_ne_nil _ key) ?_
  rw [getD_collectHeaders, getD_collectHeaders]
  by_cases hkey : ∃ name, canonicalName name = key
  · obtain ⟨name, rfl⟩ := hkey
    exact h name
  · rw [hnone _ key hkey, hnone _ key hkey]

/-! ## what an envelope has of a request -/

section
variable {headers : Http.Headers} {fields : Http.Fields}

theorem valuesUnder_canonicalName (h : headers.Holds fields) (name : String) :
    valuesUnder (canonicalName name) headers = (fields.values name).map Utf8.lossy := by
  unfold valuesUnder
  rw [h.values name]

theorem exists_field_of_mem_entries (h : headers.Holds fields) {entry : String × List String}
    (he : entry ∈ (collectHeaders headers).entries) :
    entry.2 ≠ [] ∧ ∃ f ∈ fields, entry.1 = canonicalName f.1 := by
  have hget : (collectHeaders headers).get? entry.1 = some entry.2 :=
    Keyed.lookup_eq_some_of_mem (collectHeaders headers).sorted he
  have hne : entry.2 ≠ [] := by
    intro hnil
    rw [hnil] at hget
    exact collectHeaders_ne_nil headers entry.1 hget
  have hvalues : valuesUnder entry.1 headers = entry.2 := by
    rw [← getD_collectHeaders, hget, Option.getD_some]
  -- a key with values is the spelling of a header, which is a field in lower case
  obtain ⟨value, hvalue⟩ := List.exists_mem_of_ne_nil _ hne
  rw [← hvalues] at hvalue
  obtain ⟨octets, hoctets, -⟩ := List.mem_map.1 hvalue
  obtain ⟨e, hfilter, -⟩ := List.mem_map.1 hoctets
  obtain ⟨hmem, hkey⟩ := List.mem_filter.1 hfilter
  obtain ⟨f, hf, hname⟩ := h.exists_field hmem
  refine ⟨hne, f, hf, ?_⟩
  rw [← of_decide_eq_true hkey, ← hname, canonicalName_lowerName]

/-- the first value that is stored, or none if nothing is -/
theorem header?_eq_head? (e : Envelope) (name : String) :
    e.header? name = ((e.header.get? (canonicalName name)).getD []).head? := by
  unfold header?
  cases e.header.get? (canonicalName name) <;> rfl

/-- **The headers of a request are all kept, and found in any letter case.**  An envelope stores
under the spelling of a name the texts of all values of that name, in any letter case and in their
order, and nothing else; a look-up finds the first of them.  Names with the same spelling are the
same but for the case of letters.  What differs in the case of names and in the order of different
names makes the same envelope and the same wire text. -/
theorem headers_lossless (h : headers.Holds fields) (body : List (String × Json)) :
    let e := ofRequest headers body
    (∀ name, (e.header.get? (canonicalName name)).getD [] =
      (fields.values name).map Utf8.lossy) ∧
    (∀ entry ∈ e.header.entries, entry.2 ≠ [] ∧ ∃ f ∈ fields, entry.1 = canonicalName f.1) ∧
    (∀ name, e.header? name = ((fields.values name).map Utf8.lossy).head?) ∧
    (∀ a b, canonicalName a = canonicalName b ↔ lowerName a = lowerName b) ∧
    ∀ fields' headers', Rearranged fields fields' → Headers.Holds headers' fields' →
      ofRequest headers' body = e ∧ (ofRequest headers' body).wire = e.wire := by
  have hstored : ∀ name, ((collectHeaders headers).get? (canonicalName name)).getD [] =
      (fields.values name).map Utf8.lossy := by
    intro name
    rw [getD_collectHeaders, valuesUnder_canonicalName h]
  refine ⟨hstored, fun entry he => exists_field_of_mem_entries h he, ?_,
    fun a b => canonicalName_eq_iff, ?_⟩
  · intro name
    rw [header?_eq_head?, ← hstored]
    rfl
  · intro fields' headers' hsame h'
    have hheader : collectHeaders headers' = collectHeaders headers := by
      refine collectHeaders_congr fun name => ?_
      rw [valuesUnder_canonicalName h, valuesUnder_canonicalName h', hsame.values_eq]
    have he : ofRequest headers' body = ofRequest headers body := by
      unfold ofRequest
      rw [hheader]
    exact ⟨he, congrArg wire he⟩

end

/-- a map that has the values of a name next to each other, a value that is no text, and the same
request with its fields in another order -/
theorem headers_lossless_grouped :
    let fields : Http.Fields :=
      [("Accept", [0x61]), ("X-GitHub-Event", [0x70]), ("ACCEPT", [0xff])]
    let headers : Http.Headers :=
      [("accept", [0x61]), ("accept", [0xff]), ("x-github-event", [0x70])]
    let fields' : Http.Fields :=
      [("x-github-event", [0x70]), ("accept", [0x61]), ("Accept", [0xff])]
    headers.Holds fields ∧ Rearranged fields fields' ∧
    ((ofRequest headers []).header.get? (canonicalName "accept")).getD [] = ["a", "\ufffd"] ∧
    (ofRequest headers []).header? "aCCEPT" = some "a" ∧
    ofRequest (fields'.map fun f => (lowerName f.1, f.2)) [] = ofRequest headers [] := by
  intro fields headers fields'
  have haccept : lowerName "Accept" = "accept" ∧ lowerName "ACCEPT" = "accept" := by decide
  have hevent : lowerName "X-GitHub-Event" = "x-github-event" := by decide
  have hholds : headers.Holds fields := by
    intro name
    by_cases ha : "accept" = name
    · subst ha
      decide
    · by_cases he : "x-github-event" = name
      · subst he
        decide
      · simp [headers, fields, haccept, hevent, ha, he]
  have hsame : Rearranged fields fields' :=
    .trans (.swap (by decide)) (.cons hevent (.cons (by decide) (.cons (by decide) .nil)))
  obtain ⟨hstored, -, hfound, -, hother⟩ := headers_lossless hholds []
  refine ⟨hholds, hsame, (hstored "accept").trans (by decide),
    (hfound "aCCEPT").trans (by decide), ?_⟩
  exact (hother fields' _ hsame (holds_map_lowerName fields')).1

end Envelope

end ForgeRelay
