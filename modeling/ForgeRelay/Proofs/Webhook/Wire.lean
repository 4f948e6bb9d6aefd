import ForgeRelay.Proofs.Json.RoundTrip
import ForgeRelay.Proofs.Json.Views
import ForgeRelay.Webhook.Envelope

/-!
# The wire format of envelopes

An envelope is written as an object of its header and its body.  The header always can be read
again; the body stands one level deep in the envelope, so a nesting of 126 is left for it.

* `Envelope.decode_headerJson`   the header is read back;
* `Envelope.read_wire`           what any written envelope is read as.

Main result: `Envelope.read_wire_eq_ok_iff`, the exact limit of the round trip.
-/

namespace ForgeRelay

open Json (Part Draft)

/-! ## the header -/

theorem Decoder.list_text_strings (room : Nat) (values : List String) :
    Decoder.list Decoder.text (⟨room + 1, Draft.ofJson (.arr (values.map .str))⟩ : Part)
      = .ok values :=
  Json.shows_part.list_map_ok (fun _ => rfl) values

namespace Envelope

theorem decode_headerJson (room : Nat) (header : StringMap (List String)) :
    Decoder.map (Decoder.list Decoder.text)
      (⟨room + 2, Draft.ofJson (headerJson header)⟩ : Part) = .ok header := by
  let f : String × Part → Except Mismatch (String × List String) := fun e =>
    (Decoder.list Decoder.text e.2).bind fun vs => .ok (e.1, vs)
  let g : String × List String → String × Part := fun h =>
    (h.1, ⟨room + 1, Draft.ofJson (.arr (h.2.map .str))⟩)
  have hf : ∀ h, f (g h) = .ok h := by
    intro h
    show (Decoder.list Decoder.text (g h).2).bind (fun vs => Except.ok (h.1, vs)) = _
    rw [Decoder.list_text_strings]
    rfl
  show (Part.entries (room + 1) (Draft.ofFields (header.entries.map fun h =>
    (h.1, .arr (h.2.map .str))))).bind _ = _
  rw [Part.entries_ofFields, List.map_map]
  show ((header.entries.map g).mapM f).bind (fun es => Except.ok (StringMap.ofList es)) = _
  rw [mapM_map_of_ok hf]
  show Except.ok (StringMap.ofList header.entries) = _
  rw [StringMap.ofList_entries]

theorem integral_headerJson (header : StringMap (List String)) :
    (headerJson header).Integral := by
  have hvalues : ∀ values : List String, (Json.arr (values.map .str)).Integral := by
    intro values
    refine Json.integralItems_iff.2 (List.forall_mem_map.2 fun _ _ => ?_)
    trivial
  exact Json.integralFields_iff.2 (List.forall_mem_map.2 fun h _ => hvalues h.2)

/-! ## the envelope -/

/-- the value that an envelope is written as -/
def json (e : Envelope) : Json := .obj [("header", headerJson e.header), ("body", e.body)]

theorem draft_wire (e : Envelope) (hi : e.body.Integral) :
    Draft.read? e.wire = some (Draft.ofJson e.json) :=
  Draft.read?_write (j := e.json) ⟨integral_headerJson e.header, hi, trivial⟩

/-- the header and the body are one level deep in the envelope -/
theorem decoder_draft (e : Envelope) (ho : e.body.Ordered) :
    decoder ⟨Json.maxDepth, Draft.ofJson e.json⟩
      = if e.body.depth ≤ 126 then .ok e else .error .unreadable := by
  let entries : List (String × Part) :=
    [("header", ⟨126, Draft.ofJson (headerJson e.header)⟩),
      ("body", ⟨126, Draft.ofJson e.body⟩)]
  have hf : Document.fields "Envelope" (⟨Json.maxDepth, Draft.ofJson e.json⟩ : Part)
      = .ok (.keyed entries) := rfl
  have hh : (Record.required "header" (Decoder.map (Decoder.list Decoder.text))).keyed entries
      = .ok e.header := by
    rw [Record.keyed_required _ (by rfl), decode_headerJson 124]
    rfl
  have hm : (Envelope.mk <$>
      Record.required "header" (Decoder.map (Decoder.list Decoder.text))).keyed entries
        = .ok (Envelope.mk e.header) := by
    rw [Record.keyed_map, hh]
    rfl
  have hb : (Record.required "body" Part.json).keyed entries
      = (if e.body.depth ≤ 126 then Except.ok e.body
          else .error .unreadable).mapError (.wrong "body") := by
    rw [Record.keyed_required _ (by rfl), Part.json_ofJson 126 ho]
  unfold decoder
  rw [Record.read_keyed _ hf, Record.keyed_seq hm, hb]
  by_cases hd : e.body.depth ≤ 126
  · rw [if_pos hd, if_pos hd]
    rfl
  · rw [if_neg hd, if_neg hd]
    rfl

theorem read_wire (e : Envelope) (ho : e.body.Ordered) (hi : e.body.Integral) :
    read e.wire = if e.body.depth ≤ 126 then .ok e
      else .error (.malformed Mismatch.unreadable.message) := by
  unfold read Json.decode
  rw [draft_wire e hi]
  dsimp only
  rw [decoder_draft e ho]
  by_cases hd : e.body.depth ≤ 126
  · rw [if_pos hd, if_pos hd]
  · rw [if_neg hd, if_neg hd]

theorem depth_le_of_read_wire {e a : Envelope} (ho : e.body.Ordered) (hi : e.body.Integral)
    (h : read e.wire = .ok a) : e.body.depth ≤ 126 ∧ a = e := by
  rw [read_wire e ho hi] at h
  by_cases hd : e.body.depth ≤ 126
  · rw [if_pos hd] at h
    exact ⟨hd, (Except.ok.inj h).symm⟩
  · rw [if_neg hd] at h
    cases h

/-- **A written envelope is read back exactly if its body is nested at most 126 deep.**  A deeper
one is refused as malformed, and no two envelopes are written alike if one of them can be read.  The
fields of objects stand in the order of their names, as they do in every value that is read; numbers
are integers of the exact range, header names and values are any texts. -/
theorem read_wire_eq_ok_iff (e : Envelope) (ho : e.body.Ordered) (hi : e.body.Integral) :
    (read e.wire = .ok e ↔ e.body.depth ≤ 126)
    ∧ (126 < e.body.depth → ∃ reason, read e.wire = .error (.malformed reason))
    ∧ ((∃ a, read e.wire = .ok a) → ∀ e' : Envelope, e'.body.Ordered → e'.body.Integral →
        e'.wire = e.wire → e' = e) := by
  refine ⟨⟨?_, ?_⟩, ?_, ?_⟩
  · intro h
    exact (depth_le_of_read_wire ho hi h).1
  · intro hd
    rw [read_wire e ho hi, if_pos hd]
  · intro hd
    refine ⟨Mismatch.unreadable.message, ?_⟩
    rw [read_wire e ho hi, if_neg (by omega)]
  · rintro ⟨a, ha⟩ e' ho' hi' hw
    have he : a = e := (depth_le_of_read_wire ho hi ha).2
    rw [← hw] at ha
    have he' : a = e' := (depth_le_of_read_wire ho' hi' ha).2
    rw [← he, ← he']

/-- an envelope with a header of two values and a body of three levels -/
theorem read_wire_nested :
    let body : Json := .obj [("after", .str "\u0001é"),
      ("sizes", .arr [.num (.int (-9223372036854775808)), .arr [.null]])]
    let e : Envelope := ⟨StringMap.empty.insert "Accept" ["a", "b"], body⟩
    body.Ordered ∧ body.Integral ∧ read e.wire = .ok e := by
  intro body e
  have ho : body.Ordered := by
    refine ⟨?_, trivial, ⟨trivial, ⟨trivial, trivial⟩, trivial⟩, trivial⟩
    exact List.pairwise_pair.2 (by decide)
  have hi : body.Integral :=
    ⟨trivial, ⟨⟨by decide, by decide⟩, ⟨trivial, trivial⟩, trivial⟩, trivial⟩
  exact ⟨ho, hi, (read_wire_eq_ok_iff e ho hi).1.2 (by decide)⟩

end Envelope

end ForgeRelay
