import ForgeRelay.Delivery.Topology
import ForgeRelay.Proofs.Duration
import ForgeRelay.Proofs.Json.RoundTrip
import ForgeRelay.Proofs.Json.Views

/-!
# Written topologies

A topology is written with its timeouts in milliseconds, of any size; they are read back as numerals
below 2^64.  `Provider.decoder_eq` says what becomes of one provider, and from it follows what
becomes of a topology, in a value or in the text of one: the first timeout that is too long is
reported, and nothing else can be.

A value has its fields by name; a text written from the records themselves has them as they are
declared.  `Topology.Writes` leaves their order open, so what is proved holds of both.

* `Topology.writes_toJson`, `Topology.writes_declared`   the value, and the text without one;
* `Topology.Writes.decoder_eq`      what a written topology is read as;
* `Topology.survives_writing_iff`   which topologies survive.
-/

namespace ForgeRelay

/-! ## durations -/

namespace Duration

/-- a whole number of milliseconds -/
def IsWhole (d : Duration) : Prop := d.nanos % 1000000 = 0

instance (d : Duration) : Decidable d.IsWhole :=
  inferInstanceAs (Decidable (d.nanos % 1000000 = 0))

theorem ofMillis_millis {d : Duration} (h : d.IsWhole) : ofMillis d.millis = d := by
  have hnanos : d.nanos / 1000000 * 1000000 = d.nanos := by
    unfold IsWhole at h
    omega
  show (⟨d.nanos / 1000000 * 1000000⟩ : Duration) = d
  rw [hnanos]

theorem parse?_millisText_of_isWhole {d : Duration} (h : d.IsWhole) :
    parse? d.millisText = if d.millis < limit then some d else none := by
  rw [parse?_millisText, ofMillis_millis h]

theorem parse?_millisText_of_long {d : Duration} (h : limit ≤ d.millis) :
    parse? d.millisText = none := by
  rw [parse?_millisText, if_neg (by omega)]

theorem decoder_ofNat {n : Nat} (h : n < limit) :
    Decoder.duration (Json.ofNat n) = .ok (ofSecs n) :=
  if_pos h

end Duration

/-! ## records -/

/-- the provider as it is written: parts of a millisecond are left out of its timeout -/
def Provider.inMillis (p : Provider) : Provider :=
  { p with timeout := .ofMillis p.timeout.millis }

def Topology.inMillis (t : Topology) : Topology :=
  { t with providers := t.providers.map Provider.inMillis }

/-- the provider's timeout is too long to be read back -/
def Provider.isTooLong (p : Provider) : Bool := Duration.limit ≤ p.timeout.millis

/-- why a provider that is too long is not read back -/
def Provider.refusal (p : Provider) : Mismatch := .duration p.timeout.millisText

/-! ## the fields that are written -/

/-- as they are declared -/
def Provider.fields (p : Provider) : List (String × Json) :=
  [("name", .str p.name), ("providerType", .str p.kind), ("url", .str p.url),
    ("timeout", .str p.timeout.millisText)]

def Endpoint.fields (e : Endpoint) : List (String × Json) :=
  [("name", .str e.name), ("topic", .str e.topic), ("providerRef", .str e.provider)]

def Topology.fields (providers destinations sources : List Json) : List (String × Json) :=
  [("messageProviders", .arr providers), ("eventDestinations", .arr destinations),
    ("eventSources", .arr sources)]

/-- the value is the topology, the fields of each record in any order -/
def Topology.Writes (t : Topology) (j : Json) : Prop :=
  ∃ ps ds ss, List.Forall₂ (fun p => Json.IsObjectOf p.fields) t.providers ps ∧
    List.Forall₂ (fun e => Json.IsObjectOf e.fields) t.destinations ds ∧
    List.Forall₂ (fun e => Json.IsObjectOf e.fields) t.sources ss ∧
    j.IsObjectOf (fields ps ds ss)

/-- all fields in the order of their declaration, as a record is written without a value between -/
def Topology.declared (t : Topology) : Json :=
  .obj (fields (t.providers.map fun p => .obj p.fields) (t.destinations.map fun e => .obj e.fields)
    (t.sources.map fun e => .obj e.fields))

theorem forall₂_map {α β : Type} {r : α → β → Prop} {f : α → β} (h : ∀ a, r a (f a))
    (as : List α) : List.Forall₂ r as (as.map f) :=
  List.forall₂_map_right_iff.2 (List.forall₂_same.2 fun a _ => h a)

theorem Topology.writes_declared (t : Topology) : t.Writes t.declared := by
  refine ⟨_, _, _, ?_, ?_, ?_, Json.isObjectOf_obj _⟩
  · exact forall₂_map (fun p => Json.isObjectOf_obj p.fields) t.providers
  · exact forall₂_map (fun e => Json.isObjectOf_obj e.fields) t.destinations
  · exact forall₂_map (fun e => Json.isObjectOf_obj e.fields) t.sources

theorem Endpoint.isObjectOf_toJson (e : Endpoint) : e.toJson.IsObjectOf e.fields := by
  have hsorted : ["name", "providerRef", "topic"].Pairwise (· < ·) := by decide
  exact Json.isObjectOf_ofFields (List.pairwise_map.1 hsorted) ((List.Perm.swap _ _ _).cons _)

theorem Provider.isObjectOf_toJson (p : Provider) : p.toJson.IsObjectOf p.fields := by
  have hsorted : ["name", "providerType", "timeout", "url"].Pairwise (· < ·) := by decide
  exact Json.isObjectOf_ofFields (List.pairwise_map.1 hsorted)
    (((List.Perm.swap _ _ _).cons _).cons _)

theorem Topology.writes_toJson (t : Topology) : t.Writes t.toJson := by
  have hsorted : ["eventDestinations", "eventSources", "messageProviders"].Pairwise (· < ·) := by
    decide
  refine ⟨_, _, _, ?_, ?_, ?_, Json.isObjectOf_ofFields (List.pairwise_map.1 hsorted)
    (((List.Perm.swap _ _ _).cons _).trans (List.Perm.swap _ _ _))⟩
  · exact forall₂_map Provider.isObjectOf_toJson t.providers
  · exact forall₂_map Endpoint.isObjectOf_toJson t.destinations
  · exact forall₂_map Endpoint.isObjectOf_toJson t.sources

theorem Json.IsObjectOf.integral {fields : List (String × Json)} {j : Json}
    (hj : j.IsObjectOf fields) (h : IntegralFields fields) : j.Integral := by
  obtain ⟨fs, hperm, rfl⟩ := hj
  rw [integralFields_iff] at h
  exact integralFields_iff.2 fun f hf => h f (hperm.mem_iff.1 hf)

theorem Json.integralItems_of_forall₂ {α : Type} {fields : α → List (String × Json)}
    (h : ∀ a, IntegralFields (fields a)) {as : List α} {js : List Json}
    (hjs : List.Forall₂ (fun a => IsObjectOf (fields a)) as js) : IntegralItems js := by
  induction hjs with
  | nil => trivial
  | cons hj _ ih => exact ⟨hj.integral (h _), ih⟩

theorem Topology.Writes.integral {t : Topology} {j : Json} (hj : t.Writes j) : j.Integral := by
  obtain ⟨ps, ds, ss, hps, hds, hss, hj⟩ := hj
  have hprovider : ∀ p : Provider, Json.IntegralFields p.fields := by
    intro p
    exact ⟨trivial, trivial, trivial, trivial, trivial⟩
  have hendpoint : ∀ e : Endpoint, Json.IntegralFields e.fields := by
    intro e
    exact ⟨trivial, trivial, trivial, trivial⟩
  exact hj.integral ⟨Json.integralItems_of_forall₂ hprovider hps,
    Json.integralItems_of_forall₂ hendpoint hds, Json.integralItems_of_forall₂ hendpoint hss,
    trivial⟩

/-! ## what they are read as -/

section
variable {δ : Type} [Document δ] {view : Nat → Json → δ} (h : Json.Shows view)

include h

theorem Endpoint.decoder_eq (room : Nat) {e : Endpoint} {j : Json} (hj : j.IsObjectOf e.fields) :
    Endpoint.decoder (view (room + 1) j) = .ok e := by
  obtain ⟨fs, hperm, rfl⟩ := hj
  have hentries := hperm.map fun f => (f.1, view room f.2)
  unfold decoder
  rw [h.read_obj,
    Record.keyed_seq_ok (h.required_text (Record.filter_of_perm hentries (by rfl))),
    Record.keyed_seq_ok (h.required_text (Record.filter_of_perm hentries (by rfl))),
    Record.keyed_map, h.required_text (Record.filter_of_perm hentries (by rfl))]
  rfl

theorem decoder_millisText (room : Nat) (d : Duration) :
    Decoder.duration (view room (.str d.millisText))
      = if d.millis < Duration.limit then .ok (.ofMillis d.millis)
        else .error (.duration d.millisText) := by
  unfold Decoder.duration
  rw [h.leaf]
  dsimp only
  rw [Duration.parse?_millisText]
  by_cases hsmall : d.millis < Duration.limit
  · rw [if_pos hsmall, if_pos hsmall]
  · rw [if_neg hsmall, if_neg hsmall]

/-- the timeout alone decides what becomes of a provider -/
theorem Provider.decoder_eq (room : Nat) {p : Provider} {j : Json} (hj : j.IsObjectOf p.fields) :
    Provider.decoder (view (room + 1) j)
      = if p.isTooLong then .error p.refusal else .ok p.inMillis := by
  obtain ⟨fs, hperm, rfl⟩ := hj
  have hentries := hperm.map fun f => (f.1, view room f.2)
  have hurl : Decoder.text (view room (.str p.url)) = .ok p.url := h.text room p.url
  unfold decoder
  -- the timeout is declared last, and no other field can be refused
  rw [h.read_obj,
    Record.keyed_seq (g := Provider.mk p.name p.kind p.url) ?fields,
    Record.keyed_withDefault _ _ (Record.filter_of_perm hentries (by rfl)), decoder_millisText h]
  case fields =>
    rw [Record.keyed_seq_ok
        (Record.keyed_withDefault_ok "" (Record.filter_of_perm hentries (by rfl)) hurl),
      Record.keyed_seq_ok (h.required_text (Record.filter_of_perm hentries (by rfl))),
      Record.keyed_map, h.required_text (Record.filter_of_perm hentries (by rfl))]
    rfl
  by_cases hsmall : p.timeout.millis < Duration.limit
  · have hshort : p.isTooLong = false := decide_eq_false (by omega)
    rw [if_pos hsmall, hshort]
    rfl
  · have hlong : p.isTooLong = true := decide_eq_true (by omega)
    rw [if_neg hsmall, hlong]
    rfl

/-- the first provider that is too long decides what becomes of a topology -/
theorem Topology.Writes.decoder_eq (room : Nat) {t : Topology} {j : Json} (hj : t.Writes j) :
    Topology.decoder (view (room + 3) j)
      = ((t.providers.find? Provider.isTooLong).map Provider.refusal).elim (.ok t.inMillis)
          .error := by
  obtain ⟨ps, ds, ss, hps, hds, hss, fs, hperm, rfl⟩ := hj
  have hentries := hperm.map fun f => (f.1, view (room + 2) f.2)
  have hendpoints : ∀ {es : List Endpoint} {js : List Json},
      List.Forall₂ (fun e => Json.IsObjectOf e.fields) es js →
      Decoder.list Endpoint.decoder (view (room + 2) (.arr js)) = .ok es := by
    intro es js hes
    rw [h.list_forall₂ hes fun _ _ he => Endpoint.decoder_eq h room he]
    exact List.mapM_pure.trans (congrArg Except.ok (List.map_id es))
  have hproviders : Decoder.list Provider.decoder (view (room + 2) (.arr ps))
      = ((t.providers.find? Provider.isTooLong).map Provider.refusal).elim
          (.ok (t.providers.map Provider.inMillis)) .error := by
    rw [h.list_forall₂ hps fun _ _ hp => Provider.decoder_eq h room hp]
    exact mapM_eq_find? (fun _ => rfl) t.providers
  unfold decoder
  rw [h.read_obj,
    Record.keyed_seq_ok
      (Record.keyed_withDefault_ok [] (Record.filter_of_perm hentries (by rfl)) (hendpoints hss)),
    Record.keyed_seq_ok
      (Record.keyed_withDefault_ok [] (Record.filter_of_perm hentries (by rfl)) (hendpoints hds)),
    Record.keyed_map, Record.keyed_withDefault _ _ (Record.filter_of_perm hentries (by rfl)),
    hproviders]
  cases t.providers.find? Provider.isTooLong <;> rfl

end

/-! ## topologies -/

namespace Topology

theorem Writes.decoder_toJson {t : Topology} {j : Json} (hj : t.Writes j) :
    decoder j = decoder t.toJson :=
  (hj.decoder_eq Json.shows_value 0).trans
    (t.writes_toJson.decoder_eq Json.shows_value 0).symm

/-- the text of a topology is read as the topology's value is -/
theorem Writes.decode_write {t : Topology} {j : Json} (hj : t.Writes j) :
    Json.decode decoder j.write = decoder j := by
  unfold Json.decode
  rw [Json.Draft.read?_write hj.integral]
  exact (hj.decoder_eq Json.shows_part 124).trans
    (hj.decoder_eq Json.shows_value 0).symm

theorem inMillis_of_isWhole {t : Topology} (h : ∀ p ∈ t.providers, p.timeout.IsWhole) :
    t.inMillis = t := by
  have hproviders : t.providers.map Provider.inMillis = t.providers := by
    refine (List.map_congr_left fun p hp => ?_).trans (List.map_id _)
    show { p with timeout := Duration.ofMillis p.timeout.millis } = p
    rw [Duration.ofMillis_millis (h p hp)]
  show { t with providers := t.providers.map Provider.inMillis } = t
  rw [hproviders]

theorem find?_isTooLong_eq_none {t : Topology} : t.providers.find? Provider.isTooLong = none ↔
    ∀ p ∈ t.providers, p.timeout.millis < Duration.limit := by
  rw [List.find?_eq_none]
  refine forall₂_congr fun p _ => ?_
  rw [Provider.isTooLong, decide_eq_true_eq, Nat.not_le]

/-- **A topology survives being written exactly if its timeouts fit.**  Timeouts of whole
milliseconds are read back if they are below 2^64 of them; of those that are not, the first is
reported as an invalid duration.  Yet such timeouts can be read: as a number of seconds, and in
every unit but milliseconds. -/
theorem survives_writing_iff (t : Topology) (h : ∀ p ∈ t.providers, p.timeout.IsWhole) :
    (decoder t.toJson = .ok t ↔ ∀ p ∈ t.providers, p.timeout.millis < Duration.limit) ∧
    ((∃ p ∈ t.providers, Duration.limit ≤ p.timeout.millis) →
      ∃ p, t.providers.find? (fun p => Duration.limit ≤ p.timeout.millis) = some p ∧
        decoder t.toJson = .error (.duration p.timeout.millisText)) ∧
    Json.decode decoder t.toJson.write = decoder t.toJson ∧
    (t.Writes t.toJson ∧ t.Writes t.declared ∧
      ∀ j, t.Writes j → decoder j = decoder t.toJson ∧
        Json.decode decoder j.write = decoder t.toJson) ∧
    (∀ d : Duration, d.IsWhole → Duration.parse? d.millisText
      = if d.millis < Duration.limit then some d else none) ∧
    (∀ n u, n * Duration.Scale.factor u < Duration.limit →
      Duration.limit ≤ n * u.nanos / 1000000 →
      Duration.parse? (String.ofList (Duration.Token.of n u).text) = some ⟨n * u.nanos⟩ ∧
      Duration.parse? (Duration.mk (n * u.nanos)).millisText = none) ∧
    (∀ n, n < Duration.limit → Duration.limit ≤ n * 1000 →
      Duration.parse? (String.ofList (Nat.toDigits 10 n)) = some (.ofSecs n) ∧
      Decoder.duration (Json.ofNat n) = .ok (.ofSecs n) ∧
      Duration.parse? (Duration.ofSecs n).millisText = none) := by
  have hread : decoder t.toJson
      = ((t.providers.find? Provider.isTooLong).map Provider.refusal).elim (.ok t) .error := by
    rw [t.writes_toJson.decoder_eq Json.shows_value 0, inMillis_of_isWhole h]
  refine ⟨?_, ?_, t.writes_toJson.decode_write, ⟨t.writes_toJson, t.writes_declared, ?_⟩,
    ?_, ?_, ?_⟩
  · rw [hread, ← find?_isTooLong_eq_none]
    cases t.providers.find? Provider.isTooLong with
    | none => exact iff_of_true rfl rfl
    | some p => exact iff_of_false nofun nofun
  · rintro ⟨q, hq, hlong⟩
    have hfound : t.providers.find? Provider.isTooLong ≠ none := by
      intro hnone
      have hfits := find?_isTooLong_eq_none.1 hnone q hq
      omega
    obtain ⟨p, hp⟩ := Option.ne_none_iff_exists'.1 hfound
    refine ⟨p, hp, ?_⟩
    rw [hread, hp]
    rfl
  · intro j hj
    exact ⟨hj.decoder_toJson, hj.decode_write.trans hj.decoder_toJson⟩
  · intro d hd
    exact Duration.parse?_millisText_of_isWhole hd
  · intro n u hfits hlong
    exact ⟨Duration.parse?_of hfits, Duration.parse?_millisText_of_long hlong⟩
  · intro n hfits hlong
    have hmillis : Duration.limit ≤ (Duration.ofSecs n).millis := by
      show Duration.limit ≤ n * 1000000000 / 1000000
      omega
    exact ⟨Duration.parse?_numeral hfits, Duration.decoder_ofNat hfits,
      Duration.parse?_millisText_of_long hmillis⟩

/-- the longest timeout that survives, and one that is read from `18446744073709551615s` -/
theorem survives_writing_at_limit :
    let kept : Topology :=
      ⟨[⟨"nats-provider", "nats", "nats://127.0.0.1:4222", .ofMillis 0xffffffffffffffff⟩],
        [⟨"github", "github", "nats-provider"⟩], [⟨"github-source", "github", "nats-provider"⟩]⟩
    let lost : Topology :=
      ⟨[⟨"loopback", "memory", "", .ofSecs 10⟩,
        ⟨"nats-provider", "nats", "", .ofSecs 0xffffffffffffffff⟩], [], []⟩
    decoder kept.toJson = .ok kept ∧
      Json.decode decoder kept.declared.write = .ok kept ∧
      decoder lost.toJson = .error (.duration "18446744073709551615000ms") := by
  intro kept lost
  have hkept : ∀ p ∈ kept.providers, p.timeout.IsWhole := by decide
  have hlost : ∀ p ∈ lost.providers, p.timeout.IsWhole := by decide
  have hfits : ∀ p ∈ kept.providers, p.timeout.millis < Duration.limit := by decide
  have hlong : ∃ p ∈ lost.providers, Duration.limit ≤ p.timeout.millis := by decide
  obtain ⟨p, hp, hread⟩ := (survives_writing_iff lost hlost).2.1 hlong
  have hvalue : decoder kept.toJson = .ok kept := (survives_writing_iff kept hkept).1.2 hfits
  have hdeclared :=
    ((survives_writing_iff kept hkept).2.2.2.1.2.2 _ kept.writes_declared).2
  refine ⟨hvalue, hdeclared.trans hvalue, ?_⟩
  rw [hread]
  cases hp
  rfl

end Topology

end ForgeRelay
