import ForgeRelay.Proofs.Codec.Base64
import ForgeRelay.Proofs.Json.RoundTrip
import ForgeRelay.Proofs.Json.Slots
import ForgeRelay.Webhook.Download

/-!
# What is downloaded

A reply either says that there is no file, or that something is wrong, or it serves a file.  A file
that is served in base64 may be wrapped with blanks in any way, and is the octets of which the rest
is the base64.

* `Wraps`                        blanks put anywhere into a text;
* `unwrapped_of_wraps`           leaving the blanks out gives base64 back;
* `servedDecoder_eq_ok_iff`, `fileOctets_of_serves`   what is read of a file that is served;
* `ofReply_eq_none_iff`          which replies say that there is no file;
* `fetch_of_error`, `fetch_of_ok`   what is done without and with a credential;
* `fetch_recovers_file`          what each reply comes to.
-/

namespace ForgeRelay.Fetcher

/-! ## wrapping -/

/-- the second text is the first with blanks put in anywhere -/
inductive Wraps : List Char → List Char → Prop
  | nil : Wraps [] []
  | keep (c : Char) {cs ds : List Char} (h : Wraps cs ds) : Wraps (c :: cs) (c :: ds)
  | blank {c : Char} (hc : isBlank c = true) {cs ds : List Char} (h : Wraps cs ds) :
    Wraps cs (c :: ds)

/-- a text without its blanks -/
def unwrapped (text : String) : String := String.ofList (text.toList.filter (!isBlank ·))

theorem Wraps.filter_eq {cs ds : List Char} (h : Wraps cs ds) :
    ds.filter (!isBlank ·) = cs.filter (!isBlank ·) := by
  induction h with
  | nil => rfl
  | keep c _ ih => rw [List.filter_cons, List.filter_cons, ih]
  | blank hc _ ih =>
    rw [List.filter_cons_of_neg (by simp [hc]), ih]

theorem isBlank_charOf_of_visible : ∀ n < 0x7f, 0x20 < n → isBlank (Char.ofNat n) = false := by
  decide

theorem isBlank_of_mem_text {bs : Bytes} {c : Char} (h : c ∈ (Base64.text bs).toList) :
    isBlank c = false := by
  rw [Base64.text, String.toList_ofList] at h
  obtain ⟨b, hb, rfl⟩ := List.mem_map.1 h
  obtain ⟨hlo, hhi⟩ := Base64.visible_of_mem_encode hb
  exact isBlank_charOf_of_visible b.toNat hhi hlo

theorem unwrapped_of_wraps {bs : Bytes} {text : String}
    (h : Wraps (Base64.text bs).toList text.toList) : unwrapped text = Base64.text bs := by
  have hkept : (Base64.text bs).toList.filter (!isBlank ·) = (Base64.text bs).toList :=
    List.filter_eq_self.2 fun c hc => by simp [isBlank_of_mem_text hc]
  rw [unwrapped, h.filter_eq, hkept, String.ofList_toList]

/-! ## files -/

/-- the value is a file with this content; its encoding may be left out, or null -/
def Serves (j : Json) (encoding : Option String) (content : String) : Prop :=
  ∃ members, j = .obj members ∧ Keyed.lookup "type" members = some (.str "file") ∧
    Slot.ofMember (Keyed.lookup "encoding" members) = .ofText encoding ∧
    Keyed.lookup "content" members = some (.str content)

theorem text_eq_some_iff {found : Option Json} {s : String} :
    (found.bind fun d => (Decoder.text d).toOption) = some s ↔ found = some (.str s) := by
  cases found with
  | none => simp
  | some d =>
    cases d with
    | str t =>
      show some t = some s ↔ _
      simp
    | _ =>
      show none = some s ↔ _
      simp

theorem servedDecoder_eq_ok_iff {members : List (String × Json)} (h : (Json.obj members).Ordered)
    {served : Served} :
    servedDecoder (.obj members) = .ok served ↔
      Keyed.lookup "type" members = some (.str served.kind) ∧
      Slot.ofMember (Keyed.lookup "encoding" members) = .ofText served.encoding ∧
      Slot.ofMember (Keyed.lookup "content" members) = .ofText served.content := by
  have hd := h.1.nodup
  have hfields : Document.fields "FileContent" (Json.obj members) = .ok (.keyed members) := rfl
  rw [← toOption_eq_some_iff, servedDecoder, Record.read_keyed _ hfields, toOption_mapError,
    Record.keyed_seq_toOption, Record.keyed_seq_toOption, Record.keyed_map, toOption_map,
    Record.keyed_required_toOption hd, Record.keyed_optionalAnywhere_toOption hd,
    Record.keyed_optionalAnywhere_toOption hd, ← text_eq_some_iff, ← Slot.read_text_eq_some_iff,
    ← Slot.read_text_eq_some_iff]
  obtain ⟨kind, encoding, content⟩ := served
  cases (Keyed.lookup "type" members).bind fun d => (Decoder.text d).toOption with
  | none => simp
  | some k =>
    cases (Slot.ofMember (Keyed.lookup "encoding" members)).read Decoder.text with
    | none => simp
    | some e =>
      cases (Slot.ofMember (Keyed.lookup "content" members)).read Decoder.text <;> simp

theorem fileOctets_of_serves {j : Json} (h : j.Ordered) {encoding : Option String}
    {content : String} (hserves : Serves j encoding content) (shown : String) :
    fileOctets shown j = contentOctets shown encoding content := by
  obtain ⟨members, rfl, htype, hencoding, hcontent⟩ := hserves
  have hserved : servedDecoder (.obj members) = .ok ⟨"file", encoding, some content⟩ :=
    (servedDecoder_eq_ok_iff h).2 ⟨htype, hencoding, congrArg Slot.ofMember hcontent⟩
  rw [fileOctets, hserved]
  dsimp only
  rw [if_neg (not_not_intro rfl)]

/-- what is no file, has no content or is of the wrong kind anywhere is malformed -/
theorem fileOctets_of_not_serves {j : Json} (h : j.Ordered)
    (hserves : ∀ encoding content, ¬ Serves j encoding content) (shown : String) :
    ∃ reason, fileOctets shown j = .error (.malformed reason) := by
  cases j with
  | obj members =>
    rw [fileOctets]
    cases hserved : servedDecoder (.obj members) with
    | error why => exact ⟨why.message, rfl⟩
    | ok served =>
      obtain ⟨kind, encoding, content⟩ := served
      obtain ⟨htype, hencoding, hcontent⟩ := (servedDecoder_eq_ok_iff h).1 hserved
      dsimp only at htype ⊢
      by_cases hkind : kind = "file"
      · cases content with
        | none =>
          rw [if_neg (not_not_intro hkind)]
          exact ⟨_, rfl⟩
        | some content =>
          rw [hkind] at htype
          exact absurd ⟨members, rfl, htype, hencoding, Slot.eq_of_ofMember hcontent⟩
            (hserves encoding content)
      · rw [if_pos hkind]
        exact ⟨_, rfl⟩
  | _ => exact ⟨_, rfl⟩

/-! ## contents -/

theorem contentOctets_base64_eq_ok_iff (shown : String) {content : String} {bs : Bytes} :
    contentOctets shown (some "base64") content = .ok bs ↔
      Base64.Writes (unwrapped content) bs := by
  rw [← Base64.decode_text_eq_ok_iff, contentOctets, if_pos rfl, unwrapped]
  cases Base64.decode (Utf8.encode (String.ofList (content.toList.filter (!isBlank ·)))) <;> simp

theorem contentOctets_base64_of_not_writes {content : String}
    (h : ∀ bs, ¬ Base64.Writes (unwrapped content) bs) (shown : String) :
    ∃ reason, contentOctets shown (some "base64") content = .error (.malformed reason) := by
  cases hc : contentOctets shown (some "base64") content with
  | ok bs => exact absurd ((contentOctets_base64_eq_ok_iff shown).1 hc) (h bs)
  | error fault =>
    rw [contentOctets, if_pos rfl] at hc
    split at hc
    · cases hc
    · cases hc
      exact ⟨_, rfl⟩

theorem contentOctets_plain {encoding : Option String} (h : encoding ≠ some "base64")
    (shown content : String) :
    contentOctets shown encoding content = .ok (Utf8.encode content) := by
  rw [contentOctets, if_neg h]

/-! ## replies -/

section
variable {reply : Http.Reply}

theorem ofReply_of_read (hstatus : reply.status = 200) {j : Json}
    (hread : Json.read? reply.body = some j) (shown : String) :
    ofReply shown (.ok reply) = (fileOctets shown j).map some := by
  unfold ofReply
  dsimp only
  rw [hstatus, if_neg (by decide), if_neg (by decide), hread]

theorem ofReply_of_missing (hstatus : reply.status = 400 ∨ reply.status = 404) (shown : String) :
    ofReply shown (.ok reply) = .ok none := by
  unfold ofReply
  dsimp only
  rw [if_pos hstatus]

theorem ofReply_of_refused (hmissing : ¬ (reply.status = 400 ∨ reply.status = 404))
    (hstatus : reply.status ≠ 200) (shown : String) :
    ofReply shown (.ok reply) = .error (.refused shown reply.status) := by
  unfold ofReply
  dsimp only
  rw [if_neg hmissing, if_pos hstatus]

/-- only a status says that there is no file, never a body -/
theorem ofReply_eq_none_iff {shown : String} :
    ofReply shown (.ok reply) = .ok none ↔ reply.status = 400 ∨ reply.status = 404 := by
  refine ⟨fun hnone => ?_, fun h => ofReply_of_missing h shown⟩
  by_cases hmissing : reply.status = 400 ∨ reply.status = 404
  · exact hmissing
  by_cases hstatus : reply.status = 200
  · cases hread : Json.read? reply.body with
    | none =>
      unfold ofReply at hnone
      dsimp only at hnone
      rw [if_neg hmissing, if_neg (not_not_intro hstatus), hread] at hnone
      cases hnone
    | some j =>
      rw [ofReply_of_read hstatus hread] at hnone
      cases hoctets : fileOctets shown j with
      | error fault =>
        rw [hoctets] at hnone
        cases hnone
      | ok bs =>
        rw [hoctets] at hnone
        cases hnone
  · rw [ofReply_of_refused hmissing hstatus] at hnone
    cases hnone

end

/-- only a reply can say that there is no file, and by its status -/
theorem ofReply_eq_none_iff_replied {shown : String} {x : Except Http.CallFault Http.Reply} :
    ofReply shown x = .ok none ↔
      ∃ reply, x = .ok reply ∧ (reply.status = 400 ∨ reply.status = 404) := by
  cases x with
  | ok reply =>
    rw [ofReply_eq_none_iff]
    exact ⟨fun h => ⟨reply, rfl, h⟩, fun ⟨_, heq, h⟩ => Except.ok.inj heq ▸ h⟩
  | error fault =>
    cases fault <;> exact ⟨nofun, nofun⟩

/-! ## downloads -/

section
variable {f : Fetcher} {r : Resolver} {s : Surroundings} {info : Checkout} {path : String}
  {host : Option String}

theorem fetch_of_error {fault : RelayFault}
    (h : (r.resolve s.now s.list info.url).answer = .error fault) :
    f.fetch r s info path host = ⟨.error (.relay fault),
      (r.resolve s.now s.list info.url).resolver, (r.resolve s.now s.list info.url).listed,
      []⟩ := by
  unfold fetch
  dsimp only
  rw [h]

theorem fetch_of_ok {c : Credential} (h : (r.resolve s.now s.list info.url).answer = .ok c) :
    f.fetch r s info path host =
      ⟨ofReply (shownPath info path) (s.exchange (f.fileCall info path host c)),
        (r.resolve s.now s.list info.url).resolver, (r.resolve s.now s.list info.url).listed,
        [f.fileCall info path host c]⟩ := by
  unfold fetch
  dsimp only
  rw [h]

theorem answer_fetch {c : Credential} {reply : Http.Reply}
    (hc : (r.resolve s.now s.list info.url).answer = .ok c)
    (hreply : s.exchange (f.fileCall info path host c) = .ok reply) :
    (f.fetch r s info path host).answer = ofReply (shownPath info path) (.ok reply) := by
  rw [fetch_of_ok hc, hreply]

end

/-- **A file is recovered exactly, however it is wrapped.**  With a credential for the repository,
a reply that serves a file in base64 gives the octets whose base64 is its content without blanks; so
octets are recovered from their base64 with any blanks put in, and a content that is no octets'
base64 is malformed.  A file in another encoding is its content in UTF-8.  There is no file exactly
if the status is 400 or 404, and any other status than 200 is refused with it; a value that serves
no file is malformed. -/
theorem fetch_recovers_file {f : Fetcher} {r : Resolver} {s : Surroundings} {info : Checkout}
    {path : String} {host : Option String} {c : Credential} {reply : Http.Reply}
    (hc : (r.resolve s.now s.list info.url).answer = .ok c)
    (hreply : s.exchange (f.fileCall info path host c) = .ok reply) :
    let got := (f.fetch r s info path host).answer
    (got = .ok none ↔ reply.status = 400 ∨ reply.status = 404) ∧
    (reply.status ≠ 200 → reply.status ≠ 400 → reply.status ≠ 404 →
      got = .error (.refused (shownPath info path) reply.status)) ∧
    (reply.status = 200 → ∀ j, Json.read? reply.body = some j →
      (∀ content, Serves j (some "base64") content →
        (∀ bs, got = .ok (some bs) ↔ Base64.Writes (unwrapped content) bs) ∧
        (∀ bs, Wraps (Base64.text bs).toList content.toList → got = .ok (some bs)) ∧
        ((∀ bs, ¬ Base64.Writes (unwrapped content) bs) →
          ∃ reason, got = .error (.malformed reason))) ∧
      (∀ encoding content, Serves j encoding content → encoding ≠ some "base64" →
        got = .ok (some (Utf8.encode content))) ∧
      ((∀ encoding content, ¬ Serves j encoding content) →
        ∃ reason, got = .error (.malformed reason))) := by
  intro got
  have hgot : got = ofReply (shownPath info path) (.ok reply) := answer_fetch hc hreply
  refine ⟨?_, fun h200 h400 h404 => ?_, fun h200 j hread => ?_⟩
  · rw [hgot]
    exact ofReply_eq_none_iff
  · rw [hgot]
    exact ofReply_of_refused (fun h => h.elim h400 h404) h200 _
  · rw [ofReply_of_read h200 hread] at hgot
    have hj := (Json.read?_ordered_depth hread).1
    refine ⟨fun content hserves => ?_, fun encoding content hserves hplain => ?_, fun hno => ?_⟩
    · rw [fileOctets_of_serves hj hserves] at hgot
      have hiff : ∀ bs, got = .ok (some bs) ↔ Base64.Writes (unwrapped content) bs := by
        intro bs
        rw [hgot, ← contentOctets_base64_eq_ok_iff (shownPath info path)]
        cases contentOctets (shownPath info path) (some "base64") content <;> simp [Except.map]
      refine ⟨hiff, fun bs hwraps => (hiff bs).2 ?_, fun hno => ?_⟩
      · rw [unwrapped_of_wraps hwraps]
        exact Base64.writes_text bs
      · obtain ⟨reason, hreason⟩ := contentOctets_base64_of_not_writes hno (shownPath info path)
        rw [hreason] at hgot
        exact ⟨reason, hgot⟩
    · rw [fileOctets_of_serves hj hserves, contentOctets_plain hplain] at hgot
      exact hgot
    · obtain ⟨reason, hreason⟩ := fileOctets_of_not_serves hj hno (shownPath info path)
      rw [hreason] at hgot
      exact ⟨reason, hgot⟩

/-- a reply whose content is wrapped -/
theorem fetch_recovers_file_wrapped :
    let j := Json.obj [("content", .str "aGVs\nbG8=\n"), ("encoding", .str "base64"),
      ("type", .str "file")]
    let secret : Secret := ⟨"creds", "relay",
      StringMap.empty.insert "kabanero.io/git-0" "https://github.com/org",
      (StringMap.empty.insert "username" "dXNlcg==").insert "password" "dG9rZW4="⟩
    let r := Resolver.new "relay" .never
    let s : Surroundings := ⟨0, fun _ => .ok [secret], fun _ => .ok ⟨200, j.write⟩⟩
    let info : Checkout := ⟨"org", "app", "https://github.com/org/app", "main"⟩
    (r.resolve s.now s.list info.url).answer = .ok ⟨"user", "token", "creds"⟩ ∧
      ((Fetcher.mk none).fetch r s info "greeting" none).answer
        = .ok (some (Utf8.encode "hello")) := by
  intro j secret r s info
  have hc : (r.resolve s.now s.list info.url).answer = .ok ⟨"user", "token", "creds"⟩ :=
    toOption_eq_some_iff.1 (by decide)
  have hj : j.Ordered := ⟨by unfold Keyed.Sorted; decide, trivial, trivial, trivial, trivial⟩
  have hread : Json.read? j.write = some j := by
    rw [Json.read?_write hj ⟨trivial, trivial, trivial, trivial⟩, if_pos (by decide)]
  have hserves : Serves j (some "base64") "aGVs\nbG8=\n" := ⟨_, rfl, rfl, rfl, rfl⟩
  have hwraps : Wraps (Base64.text (Utf8.encode "hello")).toList "aGVs\nbG8=\n".toList := by
    have htext : (Base64.text (Utf8.encode "hello")).toList = "aGVsbG8=".toList := by decide
    rw [htext]
    have hblank : isBlank '\n' = true := rfl
    exact .keep _ (.keep _ (.keep _ (.keep _ (.blank hblank (.keep _ (.keep _ (.keep _ (.keep _
      (.blank hblank .nil)))))))))
  have hreply : s.exchange ((Fetcher.mk none).fileCall info "greeting" none
      ⟨"user", "token", "creds"⟩) = .ok ⟨200, j.write⟩ := rfl
  have hfile := (fetch_recovers_file hc hreply).2.2 rfl j hread
  exact ⟨hc, (hfile.1 _ hserves).2.1 _ hwraps⟩

end ForgeRelay.Fetcher
