import ForgeRelay.Credential.Sealed
import ForgeRelay.Proofs.Codec.Base64

/-!
# What a credential record holds

A field of a record holds a text if it is the base64 of the text's octets, blanks around it apart
(`Seals`).  A record is decoded to what its two fields hold.  If one of them holds nothing, the
fault names the record and the field: the user name if that holds nothing, whatever the token is.

* `decodeField_eq_ok_iff`   a field is read as the text that it holds;
* `decodeField_of_not_seals` a field that holds nothing is complained about;
* `decode_exactly_base64`   what a record is decoded to.
-/

namespace ForgeRelay

theorem Utf8.decode_eq_ok_iff {bs : Bytes} {s : String} :
    decode bs = .ok s ↔ bs = encode s := by
  rw [decode_eq_ok]
  constructor
  · intro h
    exact (encode_of_decode? h).symm
  · rintro rfl
    exact decode?_encode s

namespace SealedCredential

/-! ## fields -/

/-- a field holds a text: it is there, and between its blanks stands the base64 of the text -/
def Seals (field : Option String) (text : String) : Prop :=
  ∃ encoded, field = some encoded ∧ Base64.Writes (trim encoded) (Utf8.encode text)

/-- a reason is about the field under a key -/
def Concerns (key reason : String) : Prop :=
  reason = "missing " ++ key ∨ ∃ why, reason = key ++ ": " ++ why

theorem not_seals_none (text : String) : ¬ Seals none text := by
  rintro ⟨_, h, -⟩
  cases h

theorem seals_some_iff {encoded text : String} :
    Seals (some encoded) text ↔ Base64.Writes (trim encoded) (Utf8.encode text) := by
  constructor
  · rintro ⟨_, h, hw⟩
    cases h
    exact hw
  · intro hw
    exact ⟨encoded, rfl, hw⟩

/-- fields that hold the same text differ in blanks only -/
theorem Seals.map_trim_eq {a b : Option String} {text : String} (ha : Seals a text)
    (hb : Seals b text) : a.map trim = b.map trim := by
  obtain ⟨x, rfl, hx⟩ := ha
  obtain ⟨y, rfl, hy⟩ := hb
  exact congrArg some (hx.text_eq hy)

theorem decodeField_eq_ok_iff {secret key : String} {field : Option String} {text : String} :
    decodeField secret key field = .ok text ↔ Seals field text := by
  cases field with
  | none => exact ⟨fun h => (nomatch h), fun h => absurd h (not_seals_none text)⟩
  | some encoded =>
    rw [seals_some_iff, ← Base64.decode_text_eq_ok_iff]
    rw [decodeField]
    cases Base64.decode (Utf8.encode (trim encoded)) with
    | error fault => simp
    | ok bs =>
      rw [Except.ok.injEq, ← Utf8.decode_eq_ok_iff]
      dsimp only
      cases Utf8.decode bs <;> simp

/-- a fault of a field is about this field, and names the secret -/
theorem concerns_of_decodeField {secret key : String} {field : Option String} {fault : RelayFault}
    (h : decodeField secret key field = .error fault) :
    ∃ reason, Concerns key reason ∧ fault = .malformedSecret secret reason := by
  unfold decodeField at h
  split at h
  · cases h
    exact ⟨_, .inl rfl, rfl⟩
  · split at h
    · cases h
      exact ⟨_, .inr ⟨_, rfl⟩, rfl⟩
    · split at h
      · cases h
        exact ⟨_, .inr ⟨_, rfl⟩, rfl⟩
      · cases h

theorem decodeField_of_not_seals (secret key : String) {field : Option String}
    (h : ∀ text, ¬ Seals field text) : ∃ reason, Concerns key reason ∧
      decodeField secret key field = .error (.malformedSecret secret reason) := by
  cases hd : decodeField secret key field with
  | error fault =>
    obtain ⟨reason, hkey, rfl⟩ := concerns_of_decodeField hd
    exact ⟨reason, hkey, rfl⟩
  | ok text => exact absurd (decodeField_eq_ok_iff.1 hd) (h text)

/-! ## records -/

theorem decode_eq_ok {r : SealedCredential} {c : Credential} :
    r.decode = .ok c ↔ c.secret = r.name ∧ Seals r.username c.username ∧ Seals r.token c.token := by
  unfold decode
  simp only [chain_eq_ok, decodeField_eq_ok_iff]
  constructor
  · rintro ⟨username, hu, token, ht, h⟩
    cases h
    exact ⟨rfl, hu, ht⟩
  · rintro ⟨hname, hu, ht⟩
    refine ⟨c.username, hu, c.token, ht, ?_⟩
    rw [← hname]
    rfl

/-- the user name is decoded before the token, which then does not count -/
theorem decode_of_not_seals_username (r : SealedCredential)
    (h : ∀ text, ¬ Seals r.username text) : ∃ reason, Concerns "username" reason ∧
      ∀ token, { r with token := token }.decode = .error (.malformedSecret r.name reason) := by
  obtain ⟨reason, hkey, hu⟩ := decodeField_of_not_seals r.name "username" h
  refine ⟨reason, hkey, fun token => ?_⟩
  rw [decode, chain_eq_error]
  exact .inl hu

theorem decode_of_not_seals_token (r : SealedCredential) {username : String}
    (hu : Seals r.username username) (h : ∀ text, ¬ Seals r.token text) :
    ∃ reason, Concerns "password" reason ∧
      r.decode = .error (.malformedSecret r.name reason) := by
  obtain ⟨reason, hkey, ht⟩ := decodeField_of_not_seals r.name "password" h
  refine ⟨reason, hkey, ?_⟩
  rw [decode, chain_eq_error]
  refine .inr ⟨username, decodeField_eq_ok_iff.2 hu, ?_⟩
  rw [chain_eq_error]
  exact .inl ht

/-- no reason is about both fields -/
theorem not_concerns_both (reason : String) :
    ¬ (Concerns "username" reason ∧ Concerns "password" reason) := by
  rintro ⟨rfl | ⟨why, rfl⟩, h | ⟨why', h⟩⟩
  · exact absurd h (by decide)
  all_goals
    have hhead := congrArg (fun s => s.toList.head?) h
    simp at hhead

/-- **A record is decoded to exactly what its fields are the base64 of.**  It gives a user name and
a token iff the two fields hold them, with the name of the secret.  Else the fault names the secret;
it is about the user name if that holds no text, whatever the token is, and only else about the
token.  Records that decode to the same differ in blanks only. -/
theorem decode_exactly_base64 (r : SealedCredential) :
    (∀ username token, r.decode = .ok ⟨username, token, r.name⟩ ↔
      Seals r.username username ∧ Seals r.token token) ∧
    (∀ c, r.decode = .ok c → c.secret = r.name) ∧
    ((∀ username, ¬ Seals r.username username) → ∃ reason,
      Concerns "username" reason ∧ ¬ Concerns "password" reason ∧
        ∀ token, { r with token := token }.decode = .error (.malformedSecret r.name reason)) ∧
    ((∃ username, Seals r.username username) → (∀ token, ¬ Seals r.token token) → ∃ reason,
      Concerns "password" reason ∧ ¬ Concerns "username" reason ∧
        r.decode = .error (.malformedSecret r.name reason)) ∧
    ∀ (other : SealedCredential) (username token : String),
      r.decode = .ok ⟨username, token, r.name⟩ →
      other.decode = .ok ⟨username, token, other.name⟩ →
        r.username.map trim = other.username.map trim ∧
          r.token.map trim = other.token.map trim := by
  refine ⟨fun username token => ?_, fun c h => (decode_eq_ok.1 h).1, fun hu => ?_,
    fun ⟨username, hu⟩ ht => ?_, fun other username token h h' => ?_⟩
  · rw [decode_eq_ok]
    exact and_iff_right rfl
  · obtain ⟨reason, hkey, hd⟩ := r.decode_of_not_seals_username hu
    exact ⟨reason, hkey, fun hother => not_concerns_both reason ⟨hkey, hother⟩, hd⟩
  · obtain ⟨reason, hkey, hd⟩ := r.decode_of_not_seals_token hu ht
    exact ⟨reason, hkey, fun hother => not_concerns_both reason ⟨hother, hkey⟩, hd⟩
  · obtain ⟨-, hu, ht⟩ := decode_eq_ok.1 h
    obtain ⟨-, hu', ht'⟩ := decode_eq_ok.1 h'
    exact ⟨hu.map_trim_eq hu', ht.map_trim_eq ht'⟩

/-- a user name with blanks around it and a token without its padding -/
theorem decode_exactly_base64_unpadded :
    let r : SealedCredential := ⟨"creds", "relay", [], [], some " Ym90\n", some "dG9rZW4"⟩
    Seals r.username "bot" ∧ (∀ token, ¬ Seals r.token token) ∧
      { r with token := some "dG9rZW4=" }.decode = .ok ⟨"bot", "token", "creds"⟩ ∧
      ∃ reason, Concerns "password" reason ∧
        r.decode = .error (.malformedSecret "creds" reason) := by
  intro r
  have hu : Seals r.username "bot" := seals_some_iff.2 (by decide)
  have ht : ∀ token, ¬ Seals r.token token := by
    intro token h
    have hlength := Base64.length_encode_mod (Utf8.encode token)
    rw [← seals_some_iff.1 h] at hlength
    exact absurd hlength (by decide)
  obtain ⟨hok, -⟩ := decode_exactly_base64 { r with token := some "dG9rZW4=" }
  obtain ⟨-, -, -, hbad, -⟩ := decode_exactly_base64 r
  obtain ⟨reason, hkey, -, hd⟩ := hbad ⟨"bot", hu⟩ ht
  exact ⟨hu, ht, (hok "bot" "token").2 ⟨hu, seals_some_iff.2 (by decide)⟩, reason, hkey, hd⟩

end SealedCredential

end ForgeRelay
