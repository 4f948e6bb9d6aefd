import ForgeRelay.Proofs.Codec.Hex
import ForgeRelay.Webhook.Signature

/-!
# What a signature header is worth

The headers that `Signature.verify` takes for a body are those that carry the signature of that body
and nothing else; the case of the digits does not count, that of the scheme does.  A header is
refused for one of two reasons, which its text decides:

* `SameUpToCase`           texts that differ in the case of letters at most;
* `Signs`                  the header carries a given signature;
* `Malformed`              the header has another scheme, half an octet or a character that is no
                           digit;
* `octets?_eq_some_iff`, `octets?_eq_none_iff`   what is read of a header;
* `verify_ok_iff`, `verify_format_iff`, `verify_mismatch_iff`   the three answers.
-/

namespace ForgeRelay.Signature

/-- the texts differ in the case of letters at most -/
def SameUpToCase (a b : List Char) : Prop := a.map Char.toLower = b.map Char.toLower

/-- the header `cs`, without the blanks around it, carries `signature` -/
def Signs (signature : String) (cs : List Char) : Prop :=
  ∃ ds, cs = scheme ++ ds ∧ SameUpToCase ds signature.toList

/-- the header `cs`, without the blanks around it, is none of a signature at all -/
def Malformed (cs : List Char) : Prop :=
  ¬ scheme <+: cs ∨ ∃ ds, cs = scheme ++ ds ∧ (ds.length % 2 = 1 ∨ ∃ c ∈ ds, c ∉ Hex.alphabet)

theorem SameUpToCase.length_eq {a b : List Char} (h : SameUpToCase a b) : a.length = b.length := by
  have hmap := congrArg List.length h
  rwa [List.length_map, List.length_map] at hmap

/-! ## what is read of a header -/

theorem octets?_scheme_append (ds : List Char) : octets? (scheme ++ ds) = Hex.decode? ds := by
  have hscheme : scheme.isPrefixOf (scheme ++ ds) = true :=
    List.isPrefixOf_iff_prefix.2 (List.prefix_append scheme ds)
  rw [octets?, if_pos hscheme, List.drop_left]

theorem octets?_eq_none_of_not_scheme {cs : List Char} (h : ¬ scheme <+: cs) :
    octets? cs = none := by
  rw [octets?, if_neg (fun hscheme => h (List.isPrefixOf_iff_prefix.1 hscheme))]

/-- up to the case of its digits a header is read as the octets it writes -/
theorem octets?_eq_some_iff {cs : List Char} {bs : Bytes} :
    octets? cs = some bs ↔ ∃ ds, cs = scheme ++ ds ∧ SameUpToCase ds (Hex.encode bs) := by
  constructor
  · intro h
    by_cases hscheme : scheme <+: cs
    · obtain ⟨ds, rfl⟩ := hscheme
      rw [octets?_scheme_append, Hex.decode?_eq_some_iff] at h
      exact ⟨ds, rfl, h.trans (Hex.toLower_encode bs).symm⟩
    · rw [octets?_eq_none_of_not_scheme hscheme] at h
      cases h
  · rintro ⟨ds, rfl, hds⟩
    rw [octets?_scheme_append, Hex.decode?_eq_some_iff]
    exact hds.trans (Hex.toLower_encode bs)

theorem octets?_eq_none_iff {cs : List Char} : octets? cs = none ↔ Malformed cs := by
  by_cases hscheme : scheme <+: cs
  · obtain ⟨ds, rfl⟩ := hscheme
    rw [octets?_scheme_append, Hex.decode?_eq_none_iff]
    constructor
    · intro h
      exact .inr ⟨ds, rfl, h⟩
    · rintro (h | ⟨es, hes, h⟩)
      · exact absurd (List.prefix_append scheme ds) h
      · rw [List.append_cancel_left hes]
        exact h
  · rw [octets?_eq_none_of_not_scheme hscheme]
    exact iff_of_true rfl (.inl hscheme)

/-- digits of either case are read, a scheme in capitals is not -/
example : octets? ['s', 'h', 'a', '2', '5', '6', '=', '0', 'a', 'F', 'f'] = some [0x0a, 0xff] ∧
    octets? ['S', 'H', 'A', '2', '5', '6', '=', '0', 'a'] = none := by decide

/-! ## the three answers -/

section
variable {secret : String} {payload : Bytes} {header : String}

theorem verify_ok_iff_octets :
    verify secret header payload = .ok () ↔
      octets? (trimmed header) = some (mac secret payload) := by
  unfold verify
  cases octets? (trimmed header) with
  | none => simp
  | some bs => by_cases h : bs = mac secret payload <;> simp [h]

theorem verify_format_iff_octets :
    verify secret header payload = .error .format ↔ octets? (trimmed header) = none := by
  unfold verify
  cases octets? (trimmed header) with
  | none => simp
  | some bs => by_cases h : bs = mac secret payload <;> simp [h]

/-- there is no answer but these: every secret is a key -/
theorem verify_cases (secret header : String) (payload : Bytes) :
    verify secret header payload = .ok () ∨ verify secret header payload = .error .format ∨
      verify secret header payload = .error .mismatch := by
  unfold verify
  cases octets? (trimmed header) with
  | none => exact .inr (.inl rfl)
  | some bs =>
    by_cases h : bs = mac secret payload
    · exact .inl (if_pos h)
    · exact .inr (.inr (if_neg h))

theorem verify_ok_iff :
    verify secret header payload = .ok () ↔ Signs (sign secret payload) (trimmed header) := by
  rw [verify_ok_iff_octets, octets?_eq_some_iff, Signs, sign, String.toList_ofList]

theorem verify_format_iff :
    verify secret header payload = .error .format ↔ Malformed (trimmed header) := by
  rw [verify_format_iff_octets, octets?_eq_none_iff]

theorem verify_mismatch_iff :
    verify secret header payload = .error .mismatch ↔
      ¬ Signs (sign secret payload) (trimmed header) ∧ ¬ Malformed (trimmed header) := by
  have hformat : verify secret header payload = .error .format ↔ Malformed (trimmed header) :=
    verify_format_iff
  rw [← verify_ok_iff, ← hformat]
  rcases verify_cases secret header payload with h | h | h <;> simp [h]

end

/-! ## what is signed -/

theorem length_sign (secret : String) (payload : Bytes) :
    (sign secret payload).toList.length = 64 := by
  rw [sign, String.toList_ofList, Hex.length_encode, mac, Hmac.length_sha256]

theorem header_eq (secret : String) (payload : Bytes) :
    header secret payload = String.ofList (scheme ++ (sign secret payload).toList) := by
  rw [header, sign, String.toList_ofList]

theorem isBlank_of_mem_alphabet {c : Char} (h : c ∈ Hex.alphabet) : isBlank c = false := by
  have hall : Hex.alphabet.all (fun c => !isBlank c) = true := by decide
  have hc := List.all_eq_true.1 hall c h
  rwa [Bool.not_eq_true'] at hc

/-- there are no blanks around a header that is written -/
theorem trimmed_header (secret : String) (payload : Bytes) :
    trimmed (header secret payload) = scheme ++ (sign secret payload).toList := by
  rw [header_eq]
  apply trimmed_ofList
  · intro c hc
    cases hc
    decide
  · intro c hc
    have hlength := length_sign secret payload
    have hlast : c ∈ (sign secret payload).toList.getLast? := by
      rwa [List.getLast?_append_of_ne_nil] at hc
      exact List.ne_nil_of_length_pos (by omega)
    apply isBlank_of_mem_alphabet
    have hmem := List.mem_of_getLast? hlast
    rw [sign, String.toList_ofList] at hmem
    exact Hex.mem_alphabet_of_mem_encode hmem

/-- A body's own signature is accepted, in whichever case its digits are written and with whichever
blanks around it, and nothing else is.  A header with the scheme and whole octets that are others,
none or too many of them among these, is a mismatch. -/
theorem verify_accepts_exactly_signature (secret : String) (payload : Bytes) :
    (∀ h, verify secret h payload = .ok () ↔ Signs (sign secret payload) (trimmed h)) ∧
    (∀ h, verify secret h payload = .error .format ↔ Malformed (trimmed h)) ∧
    (∀ h, verify secret h payload = .error .mismatch ↔
      ¬ Signs (sign secret payload) (trimmed h) ∧ ¬ Malformed (trimmed h)) ∧
    (∀ h, verify secret h payload ≠ .error .key) ∧
    (∀ ds, SameUpToCase ds (sign secret payload).toList → ds.length = 64) ∧
    verify secret (header secret payload) payload = .ok () := by
  refine ⟨fun h => verify_ok_iff, fun h => verify_format_iff, fun h => verify_mismatch_iff,
    fun h => ?_, fun ds hds => ?_, ?_⟩
  · rcases verify_cases secret h payload with hv | hv | hv <;> rw [hv] <;> nofun
  · rw [hds.length_eq, length_sign]
  · exact verify_ok_iff.2 ⟨_, trimmed_header secret payload, rfl⟩

end ForgeRelay.Signature
