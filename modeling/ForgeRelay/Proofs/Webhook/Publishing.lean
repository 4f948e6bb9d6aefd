import ForgeRelay.Proofs.Keyed
import ForgeRelay.Webhook.Routes

/-!
# Publishing webhooks

A webhook is refused for its signature, then for its body, and a refused one leaves the hub as it
is.  One that is not refused is sent once, if its destination has a link, and this is all that
changes.

* `Gateway.Lacks`, `Gateway.IsForged`, `Gateway.IsTrusted`
                                        how a request stands with its signature;
* `Gateway.SentTo`                      what sending changes in a hub;
* `Gateway.acceptAll_filter_passes`     of many requests the refused ones leave no trace;
* `Gateway.sentTo_acceptAll`            and the others are sent in order;
* `Gateway.accept_once_or_not_at_all`   what becomes of one request, and of many.
-/

namespace ForgeRelay

namespace Gateway

/-! ## signatures -/

theorem lt_of_isVisible {b : UInt8} (h : isVisible b = true) : b < 0x80 := by
  unfold isVisible at h
  rcases Bool.or_eq_true_iff.1 h with h | h
  · rw [of_decide_eq_true h]
    decide
  · have hb : b ≤ 0x7e := of_decide_eq_true (Bool.and_eq_true_iff.1 h).2
    exact UInt8.lt_of_le_of_lt hb (by decide)

theorem headerText?_eq_some {value : Bytes} {text : String} :
    headerText? value = some text ↔
      (∀ b ∈ value, isVisible b = true) ∧ Utf8.encode text = value := by
  unfold headerText?
  by_cases hv : value.all isVisible = true
  · rw [if_pos hv]
    constructor
    · exact fun h => ⟨List.all_eq_true.1 hv, Utf8.encode_of_decode? h⟩
    · rintro ⟨-, rfl⟩
      exact Utf8.decode?_encode text
  · rw [if_neg hv]
    constructor
    · intro h
      cases h
    · exact fun h => absurd (List.all_eq_true.2 h.1) hv

theorem headerText?_eq_none {value : Bytes} :
    headerText? value = none ↔ ∃ b ∈ value, isVisible b = false := by
  constructor
  · intro h
    refine Classical.byContradiction fun hno => ?_
    have hv : ∀ b ∈ value, isVisible b = true := fun b hb =>
      Bool.not_eq_false _ ▸ fun hf => hno ⟨b, hb, hf⟩
    obtain ⟨text, ht⟩ := Utf8.exists_decode? fun b hb => lt_of_isVisible (hv b hb)
    have hsome := headerText?_eq_some.2 ⟨hv, Utf8.encode_of_decode? ht⟩
    rw [h] at hsome
    cases hsome
  · rintro ⟨b, hb, hf⟩
    unfold headerText?
    rw [if_neg]
    exact fun hall => Bool.eq_false_iff.1 hf (List.all_eq_true.1 hall b hb)

/-- a signature is asked for, and the first one is not there or has an octet that is not visible -/
def Lacks (g : Gateway) (headers : Http.Headers) : Prop :=
  g.secret ≠ none ∧ ∀ value, headers.first? Signature.headerName = some value →
    ∃ b ∈ value, isVisible b = false

/-- the first signature says what it says under the secret -/
def Vouches (secret : String) (headers : Http.Headers) (body : Bytes)
    (outcome : Except SignatureFault Unit) : Prop :=
  ∃ value text, headers.first? Signature.headerName = some value ∧
    (∀ b ∈ value, isVisible b = true) ∧ Utf8.encode text = value ∧
    Signature.verify secret text body = outcome

/-- a signature is asked for, and the first one does not verify -/
def IsForged (g : Gateway) (headers : Http.Headers) (body : Bytes) : Prop :=
  ∃ secret fault, g.secret = some secret ∧ Vouches secret headers body (.error fault)

/-- no signature is asked for, or the first one verifies -/
def IsTrusted (g : Gateway) (headers : Http.Headers) (body : Bytes) : Prop :=
  ∀ secret, g.secret = some secret → Vouches secret headers body (.ok ())

/-- a signature verifies, does not, or is no text at all -/
theorem vouches_cases (secret : String) (headers : Http.Headers) (body : Bytes) :
    (∀ value, headers.first? Signature.headerName = some value →
      ∃ b ∈ value, isVisible b = false) ∨ ∃ outcome, Vouches secret headers body outcome := by
  cases hv : headers.first? Signature.headerName with
  | none => exact .inl fun value h => by cases h
  | some value =>
    cases ht : headerText? value with
    | none =>
      refine .inl fun value' h => ?_
      obtain rfl := Option.some.inj h
      exact headerText?_eq_none.1 ht
    | some text =>
      obtain ⟨hvisible, hencode⟩ := headerText?_eq_some.1 ht
      exact .inr ⟨_, value, text, hv, hvisible, hencode, rfl⟩

theorem standing_cases (g : Gateway) (headers : Http.Headers) (body : Bytes) :
    g.Lacks headers ∨ g.IsForged headers body ∨ g.IsTrusted headers body := by
  cases hs : g.secret with
  | none => exact .inr (.inr fun secret h => by rw [hs] at h; cases h)
  | some secret =>
    rcases vouches_cases secret headers body with hno | ⟨outcome, hv⟩
    · exact .inl ⟨by rw [hs]; exact Option.some_ne_none _, hno⟩
    · cases outcome with
      | error fault => exact .inr (.inl ⟨secret, fault, hs, hv⟩)
      | ok _ =>
        refine .inr (.inr fun secret' h => ?_)
        rw [hs] at h
        exact Option.some.inj h ▸ hv

theorem verify_of_lacks {g : Gateway} {headers : Http.Headers} (h : g.Lacks headers)
    (body : Bytes) : g.verify headers body = .error .unsigned := by
  obtain ⟨hs, hno⟩ := h
  obtain ⟨secret, hsecret⟩ := Option.ne_none_iff_exists'.1 hs
  have htext : (headers.first? Signature.headerName).bind headerText? = none := by
    cases hv : headers.first? Signature.headerName with
    | none => rfl
    | some value => exact headerText?_eq_none.2 (hno value hv)
  unfold verify
  rw [hsecret]
  dsimp only
  rw [htext]

theorem verify_of_vouches {g : Gateway} {headers : Http.Headers} {body : Bytes} {secret : String}
    {outcome : Except SignatureFault Unit} (hs : g.secret = some secret)
    (h : Vouches secret headers body outcome) :
    g.verify headers body = outcome.mapError fun _ => .forged := by
  obtain ⟨value, text, hv, hvisible, hencode, rfl⟩ := h
  have htext : (headers.first? Signature.headerName).bind headerText? = some text := by
    rw [hv, Option.bind_some]
    exact headerText?_eq_some.2 ⟨hvisible, hencode⟩
  unfold verify
  rw [hs]
  dsimp only
  rw [htext]
  dsimp only
  cases Signature.verify secret text body <;> rfl

theorem verify_of_isTrusted {g : Gateway} {headers : Http.Headers} {body : Bytes}
    (h : g.IsTrusted headers body) : g.verify headers body = .ok () := by
  cases hs : g.secret with
  | none =>
    unfold verify
    rw [hs]
  | some secret => exact verify_of_vouches hs (h secret hs)

theorem verify_eq_ok_iff {g : Gateway} {headers : Http.Headers} {body : Bytes} :
    g.verify headers body = .ok () ↔ g.IsTrusted headers body := by
  refine ⟨fun hv => ?_, verify_of_isTrusted⟩
  rcases g.standing_cases headers body with hs | ⟨secret, fault, hsecret, hs⟩ | hs
  · rw [verify_of_lacks hs body] at hv
    cases hv
  · rw [verify_of_vouches hsecret hs] at hv
    cases hv
  · exact hs

end Gateway

/-! ## links -/

namespace Hub

/-- all providers are within the process -/
def IsLoopback (h : Hub) : Prop := ∀ e ∈ h.links, e.2.maxPayload = none

theorem link?_putLink (h : Hub) (name other : String) (l : Link) :
    (h.putLink name l).link? other = if other = name then some l else h.link? other :=
  Keyed.lookup_put name other l h.links

theorem maxPayload_of_link? {h : Hub} (hl : h.IsLoopback) {name : String} {l : Link}
    (hlink : h.link? name = some l) : l.maxPayload = none :=
  hl (name, l) (Keyed.mem_of_lookup hlink)

theorem IsLoopback.putLink {h : Hub} (hl : h.IsLoopback) (name : String) {l : Link}
    (hnone : l.maxPayload = none) : (h.putLink name l).IsLoopback := by
  intro e he
  rcases Keyed.mem_put he with rfl | he
  · exact hnone
  · exact hl e he

/-- an endpoint that was looked up is found if it is declared and its provider has a link -/
theorem resolve_eq_ok {h : Hub} {role : Role} {name : String} {found : Option Endpoint}
    {node : Endpoint} {l : Link} :
    h.resolve role name found = .ok (node, l) ↔
      found = some node ∧ h.link? node.provider = some l := by
  unfold resolve linkFor
  cases found with
  | none => simp
  | some e =>
    cases hl : h.link? e.provider with
    | none =>
      simp only [hl]
      constructor
      · intro he
        cases he
      · rintro ⟨he, hn⟩
        cases he
        rw [hl] at hn
        cases hn
    | some l' =>
      simp only [hl]
      constructor
      · intro he
        cases he
        exact ⟨rfl, hl⟩
      · rintro ⟨he, hn⟩
        cases he
        rw [hl] at hn
        cases hn
        rfl

theorem destination_eq_ok {h : Hub} {name : String} {node : Endpoint} {l : Link} :
    h.destination name = .ok (node, l) ↔
      h.topology.destination? name = some node ∧ h.link? node.provider = some l := resolve_eq_ok

theorem source_eq_ok {h : Hub} {name : String} {node : Endpoint} {l : Link} :
    h.source name = .ok (node, l) ↔
      h.topology.source? name = some node ∧ h.link? node.provider = some l := resolve_eq_ok

end Hub

namespace Gateway

/-! ## one request -/

theorem publish_of_destination {g : Gateway} {h : Hub} (hl : h.IsLoopback) {node : Endpoint}
    {l : Link} (hd : h.destination g.destination = .ok (node, l)) (e : Envelope) :
    g.publish h e = (.ok (), h.putLink node.provider
      { l with broker := l.broker.send node.topic e.wire }) := by
  have haccepts : l.accepts e.wire = true := by
    unfold Link.accepts
    rw [Hub.maxPayload_of_link? hl (Hub.destination_eq_ok.1 hd).2]
  unfold publish Link.send
  rw [hd]
  dsimp only
  rw [if_pos haccepts]

theorem publish_of_no_destination {g : Gateway} {h : Hub} {fault : RelayFault}
    (hd : h.destination g.destination = .error fault) (e : Envelope) :
    g.publish h e = (.error (.relay fault), h) := by
  unfold publish
  rw [hd]

theorem accept_of_refused {g : Gateway} {headers : Http.Headers} {body : Bytes}
    {fault : WebhookFault} (hv : g.verify headers body = .error fault) (h : Hub) :
    g.accept h headers body = (.error fault, h) := by
  unfold accept
  rw [hv]

theorem bodyFields_eq_ok {body : Bytes} {fields : List (String × Json)} :
    bodyFields body = .ok fields ↔ Json.read? body = some (.obj fields) := by
  unfold bodyFields
  constructor
  · intro h
    split at h
    · rename_i hb
      cases h
      exact hb
    · cases h
    · cases h
  · intro h
    rw [h]

/-- a body that is no object is malformed -/
theorem bodyFields_eq_error {body : Bytes} (hb : ∀ fields, Json.read? body ≠ some (.obj fields)) :
    ∃ reason, bodyFields body = .error (.malformed reason) := by
  unfold bodyFields
  split
  · rename_i fields h
    exact absurd h (hb fields)
  · exact ⟨_, rfl⟩
  · exact ⟨_, rfl⟩

theorem accept_of_malformed {g : Gateway} {headers : Http.Headers} {body : Bytes}
    (hv : g.verify headers body = .ok ()) {fault : WebhookFault}
    (hb : bodyFields body = .error fault) (h : Hub) :
    g.accept h headers body = (.error fault, h) := by
  unfold accept
  rw [hv]
  dsimp only
  rw [hb]

theorem accept_of_fields {g : Gateway} {headers : Http.Headers} {body : Bytes}
    (hv : g.verify headers body = .ok ()) {fields : List (String × Json)}
    (hb : bodyFields body = .ok fields) (h : Hub) :
    g.accept h headers body =
      (.ok ⟨Envelope.ofRequest headers fields,
        (g.publish h (Envelope.ofRequest headers fields)).1.isOk⟩,
        (g.publish h (Envelope.ofRequest headers fields)).2) := by
  unfold accept
  rw [hv]
  dsimp only
  rw [hb]
  dsimp only
  split
  · rename_i hp
    rw [hp]
    rfl
  · rename_i hp
    rw [hp]
    rfl

/-- the hub after something was sent to an endpoint: one link changes -/
structure SentTo (h after : Hub) (node : Endpoint) (l : Link) (payloads : List Bytes) : Prop where
  topology : after.topology = h.topology
  link : ∀ name, after.link? name = if name = node.provider then
      some { l with broker := payloads.foldl (·.send node.topic) l.broker }
    else h.link? name

theorem publish_cases {g : Gateway} {h : Hub} (hl : h.IsLoopback) (e : Envelope) :
    (∃ node l, h.topology.destination? g.destination = some node ∧
      h.link? node.provider = some l ∧ (g.publish h e).1.isOk = true ∧
      SentTo h (g.publish h e).2 node l [e.wire]) ∨
    (¬ (∃ node l, h.topology.destination? g.destination = some node ∧
      h.link? node.provider = some l) ∧ (g.publish h e).1.isOk = false ∧
      (g.publish h e).2 = h) := by
  cases hd : h.destination g.destination with
  | ok route =>
    obtain ⟨node, l⟩ := route
    obtain ⟨hnode, hlink⟩ := Hub.destination_eq_ok.1 hd
    rw [publish_of_destination hl hd]
    exact .inl ⟨node, l, hnode, hlink, rfl, rfl, fun name => Hub.link?_putLink ..⟩
  | error fault =>
    rw [publish_of_no_destination hd]
    refine .inr ⟨?_, rfl, rfl⟩
    rintro ⟨node, l, hnode, hlink⟩
    rw [Hub.destination_eq_ok.2 ⟨hnode, hlink⟩] at hd
    cases hd

theorem SentTo.refl {h : Hub} {node : Endpoint} {l : Link}
    (hl : h.link? node.provider = some l) : SentTo h h node l [] := by
  refine ⟨rfl, fun name => ?_⟩
  by_cases hn : name = node.provider
  · rw [if_pos hn, hn, hl]
    rfl
  · rw [if_neg hn]

theorem SentTo.link_self {h after : Hub} {node : Endpoint} {l : Link} {ps : List Bytes}
    (hs : SentTo h after node l ps) :
    after.link? node.provider = some { l with broker := ps.foldl (·.send node.topic) l.broker } :=
  (hs.link node.provider).trans (if_pos rfl)

theorem SentTo.trans {h mid after : Hub} {node : Endpoint} {l l' : Link} {ps qs : List Bytes}
    (hs : SentTo h mid node l ps) (hl : mid.link? node.provider = some l')
    (hs' : SentTo mid after node l' qs) : SentTo h after node l (ps ++ qs) := by
  obtain rfl := Option.some.inj (hs.link_self.symm.trans hl)
  refine ⟨hs'.topology.trans hs.topology, fun name => ?_⟩
  rw [hs'.link, hs.link, List.foldl_append]
  split <;> rfl

/-! ## many requests -/

/-- requests one after the other -/
def acceptAll (g : Gateway) : Hub → List (Http.Headers × Bytes) →
    List (Except WebhookFault Acceptance) × Hub
  | h, [] => ([], h)
  | h, r :: rs =>
    let (outcome, h) := g.accept h r.1 r.2
    let (outcomes, h) := acceptAll g h rs
    (outcome :: outcomes, h)

theorem acceptAll_cons (g : Gateway) (h : Hub) (r : Http.Headers × Bytes)
    (rs : List (Http.Headers × Bytes)) :
    g.acceptAll h (r :: rs) =
      ((g.accept h r.1 r.2).1 :: (g.acceptAll (g.accept h r.1 r.2).2 rs).1,
        (g.acceptAll (g.accept h r.1 r.2).2 rs).2) := rfl

/-- whether a request passes, which is for no hub to say -/
def passes (g : Gateway) (r : Http.Headers × Bytes) : Bool :=
  (g.verify r.1 r.2).isOk && (bodyFields r.2).isOk

theorem passes_iff {g : Gateway} {r : Http.Headers × Bytes} :
    g.passes r = true ↔ g.verify r.1 r.2 = .ok () ∧ ∃ fields, bodyFields r.2 = .ok fields := by
  unfold passes
  cases g.verify r.1 r.2 with
  | error fault => exact ⟨nofun, nofun⟩
  | ok _ =>
    cases bodyFields r.2 with
    | error fault => exact ⟨nofun, nofun⟩
    | ok fields => exact ⟨fun _ => ⟨rfl, fields, rfl⟩, fun _ => rfl⟩

theorem accept_of_not_passes {g : Gateway} {r : Http.Headers × Bytes} (hp : g.passes r = false) :
    ∃ fault, ∀ h, g.accept h r.1 r.2 = (.error fault, h) := by
  cases hv : g.verify r.1 r.2 with
  | error fault => exact ⟨fault, accept_of_refused hv⟩
  | ok _ =>
    cases hb : bodyFields r.2 with
    | error fault => exact ⟨fault, accept_of_malformed hv hb⟩
    | ok fields =>
      unfold passes at hp
      rw [hv, hb] at hp
      cases hp

theorem accept_of_passes {g : Gateway} {r : Http.Headers × Bytes} (hp : g.passes r = true) :
    ∃ e : Envelope, ∀ h, g.accept h r.1 r.2 =
      (.ok ⟨e, (g.publish h e).1.isOk⟩, (g.publish h e).2) := by
  obtain ⟨hv, fields, hb⟩ := passes_iff.1 hp
  exact ⟨_, accept_of_fields hv hb⟩

/-- requests that are refused leave no trace -/
theorem acceptAll_filter_passes (g : Gateway) (h : Hub) (rs : List (Http.Headers × Bytes)) :
    g.acceptAll h (rs.filter g.passes) =
      ((g.acceptAll h rs).1.filter Except.isOk, (g.acceptAll h rs).2) := by
  induction rs generalizing h with
  | nil => rfl
  | cons r rs ih =>
    rw [acceptAll_cons]
    cases hp : g.passes r with
    | false =>
      obtain ⟨fault, ha⟩ := accept_of_not_passes hp
      rw [List.filter_cons_of_neg (by simp [hp]), ih, ha h]
      rfl
    | true =>
      obtain ⟨e, ha⟩ := accept_of_passes hp
      rw [List.filter_cons_of_pos hp, acceptAll_cons, ih, ha h]
      rfl

/-- what an outcome says was sent -/
def sentBy : Except WebhookFault Acceptance → List Bytes
  | .ok a => if a.published then [a.envelope.wire] else []
  | .error _ => []

theorem isLoopback_publish {g : Gateway} {h : Hub} (hl : h.IsLoopback) (e : Envelope) :
    (g.publish h e).2.IsLoopback := by
  cases hd : h.destination g.destination with
  | ok route =>
    obtain ⟨node, l⟩ := route
    have hnone : l.maxPayload = none :=
      Hub.maxPayload_of_link? hl (Hub.destination_eq_ok.1 hd).2
    rw [publish_of_destination hl hd]
    exact hl.putLink _ hnone
  | error fault =>
    rw [publish_of_no_destination hd]
    exact hl

theorem isLoopback_accept {g : Gateway} {h : Hub} (hl : h.IsLoopback)
    (r : Http.Headers × Bytes) : (g.accept h r.1 r.2).2.IsLoopback := by
  cases hp : g.passes r with
  | false =>
    obtain ⟨fault, ha⟩ := accept_of_not_passes hp
    rw [ha h]
    exact hl
  | true =>
    obtain ⟨e, ha⟩ := accept_of_passes hp
    rw [ha h]
    exact isLoopback_publish hl e

theorem sentTo_accept {g : Gateway} {h : Hub} (hl : h.IsLoopback) {node : Endpoint} {l : Link}
    (hnode : h.topology.destination? g.destination = some node)
    (hlink : h.link? node.provider = some l) (r : Http.Headers × Bytes) :
    SentTo h (g.accept h r.1 r.2).2 node l (sentBy (g.accept h r.1 r.2).1) := by
  cases hp : g.passes r with
  | false =>
    obtain ⟨fault, ha⟩ := accept_of_not_passes hp
    rw [ha h]
    exact .refl hlink
  | true =>
    obtain ⟨e, ha⟩ := accept_of_passes hp
    rw [ha h, publish_of_destination hl (Hub.destination_eq_ok.2 ⟨hnode, hlink⟩)]
    exact ⟨rfl, fun name => Hub.link?_putLink ..⟩

/-- requests one after the other are sent one after the other, each that passes once -/
theorem sentTo_acceptAll {g : Gateway} {h : Hub} (hl : h.IsLoopback) {node : Endpoint} {l : Link}
    (hnode : h.topology.destination? g.destination = some node)
    (hlink : h.link? node.provider = some l) (rs : List (Http.Headers × Bytes)) :
    SentTo h (g.acceptAll h rs).2 node l ((g.acceptAll h rs).1.flatMap sentBy) := by
  induction rs generalizing h l with
  | nil => exact .refl hlink
  | cons r rs ih =>
    have hs := sentTo_accept hl hnode hlink r
    rw [acceptAll_cons, List.flatMap_cons]
    exact hs.trans hs.link_self
      (ih (isLoopback_accept hl r) (hs.topology ▸ hnode) hs.link_self)

/-! ## what becomes of requests -/

/-- **A request is published once or changes nothing.**  Its signature is looked at before its body,
and a request that passes both is accepted also when it cannot be published.  Of many requests those
that are refused leave no trace: without them the others are answered as they are with them, and the
hub ends up the same; and the others are sent one after the other. -/
theorem accept_once_or_not_at_all (g : Gateway) {h : Hub} (hl : h.IsLoopback)
    (headers : Http.Headers) (body : Bytes) :
    let outcome := (g.accept h headers body).1
    let after := (g.accept h headers body).2
    let status := (Routes.ofOutcome outcome).status
    (g.Lacks headers ∨ g.IsForged headers body ∨ g.IsTrusted headers body) ∧
      (g.Lacks headers → outcome = .error .unsigned ∧ after = h ∧ status = 401) ∧
      (g.IsForged headers body → outcome = .error .forged ∧ after = h ∧ status = 401) ∧
      (g.IsTrusted headers body → (∀ fields, Json.read? body ≠ some (.obj fields)) →
        (∃ reason, outcome = .error (.malformed reason)) ∧ after = h ∧ status = 400) ∧
      (g.IsTrusted headers body → ∀ fields, Json.read? body = some (.obj fields) →
        ∃ published, outcome = .ok ⟨.ofRequest headers fields, published⟩ ∧ status = 202 ∧
          (published = true ↔ ∃ node l, h.topology.destination? g.destination = some node ∧
            h.link? node.provider = some l) ∧
          (published = false → after = h) ∧
          (∀ node l, h.topology.destination? g.destination = some node →
            h.link? node.provider = some l →
            SentTo h after node l [(Envelope.ofRequest headers fields).wire])) ∧
      (∀ r, g.passes r = true ↔
        g.IsTrusted r.1 r.2 ∧ ∃ fields, Json.read? r.2 = some (.obj fields)) ∧
      (∀ rs, g.acceptAll h (rs.filter g.passes) =
        ((g.acceptAll h rs).1.filter Except.isOk, (g.acceptAll h rs).2)) ∧
      ∀ rs node l, h.topology.destination? g.destination = some node →
        h.link? node.provider = some l →
          SentTo h (g.acceptAll h rs).2 node l ((g.acceptAll h rs).1.flatMap sentBy) := by
  intro outcome after status
  have hstatus : ∀ {o}, outcome = o → status = (Routes.ofOutcome o).status := fun ho =>
    congrArg (fun o => (Routes.ofOutcome o).status) ho
  refine ⟨g.standing_cases headers body, fun hs => ?_, fun hs => ?_, fun hs hb => ?_,
    fun hs fields hb => ?_, fun r => ?_, acceptAll_filter_passes g h,
    fun rs node l hnode hlink => sentTo_acceptAll hl hnode hlink rs⟩
  · have ha := accept_of_refused (verify_of_lacks hs body) h
    have ho : outcome = _ := congrArg Prod.fst ha
    exact ⟨ho, congrArg Prod.snd ha, hstatus ho⟩
  · obtain ⟨secret, fault, hsecret, hv⟩ := hs
    have ha := accept_of_refused (verify_of_vouches hsecret hv) h
    have ho : outcome = _ := congrArg Prod.fst ha
    exact ⟨ho, congrArg Prod.snd ha, hstatus ho⟩
  · obtain ⟨reason, hreason⟩ := bodyFields_eq_error hb
    have ha := accept_of_malformed (verify_of_isTrusted hs) hreason h
    have ho : outcome = _ := congrArg Prod.fst ha
    exact ⟨⟨reason, ho⟩, congrArg Prod.snd ha, hstatus ho⟩
  · have ha := accept_of_fields (verify_of_isTrusted hs) (bodyFields_eq_ok.2 hb) h
    have ho : outcome = _ := congrArg Prod.fst ha
    have hafter : after = _ := congrArg Prod.snd ha
    refine ⟨_, ho, hstatus ho, ?_⟩
    rcases publish_cases (g := g) hl (.ofRequest headers fields) with
      ⟨node, l, hnode, hlink, hok, hsent⟩ | ⟨hno, hok, hsame⟩
    · rw [hok]
      refine ⟨⟨fun _ => ⟨node, l, hnode, hlink⟩, fun _ => rfl⟩, fun hf => (nomatch hf),
        fun node' l' hnode' hlink' => ?_⟩
      obtain rfl := Option.some.inj (hnode.symm.trans hnode')
      obtain rfl := Option.some.inj (hlink.symm.trans hlink')
      exact hafter ▸ hsent
    · rw [hok]
      refine ⟨⟨fun hf => (nomatch hf), fun hyes => absurd hyes hno⟩, fun _ => hafter.trans hsame,
        fun node' l' hnode' hlink' => absurd ⟨node', l', hnode', hlink'⟩ hno⟩
  · exact passes_iff.trans (and_congr verify_eq_ok_iff (exists_congr fun _ => bodyFields_eq_ok))

/-- an empty object waits on its topic as an envelope without headers -/
theorem accept_sends_to_backlog :
    let provider : Provider := ⟨"loop", "memory", "", ⟨0⟩⟩
    let node : Endpoint := ⟨"github", "push", "loop"⟩
    let h : Hub := .withLinks ⟨[provider], [node], []⟩ [.loopback provider]
    let after := ((⟨"github", none⟩ : Gateway).accept h [] [0x7b, 0x7d]).2
    let wire := (Envelope.ofRequest [] []).wire
    h.IsLoopback ∧ SentTo h after node (.loopback provider) [wire] ∧
      ∃ l, after.link? "loop" = some l ∧ l.broker.waiting "push" = [wire] := by
  intro provider node h after wire
  have hl : h.IsLoopback := by
    intro e he
    obtain rfl := List.mem_singleton.1 he
    rfl
  obtain ⟨-, -, -, -, haccepted, -⟩ :=
    accept_once_or_not_at_all ⟨"github", none⟩ hl [] [0x7b, 0x7d]
  obtain ⟨_, -, -, -, -, hsent⟩ := haccepted (fun secret hs => nomatch hs) [] rfl
  have hsent : SentTo h after node (.loopback provider) [wire] :=
    hsent node (.loopback provider) rfl rfl
  have hwaiting : ((Link.loopback provider).broker.send "push" wire).waiting "push" = [wire] := by
    rw [Broker.waiting_send, if_pos ⟨rfl, rfl⟩]
    exact Broker.keepLast_of_length_le (show 1 ≤ Broker.defaultLimit by decide)
  exact ⟨hl, hsent, _, hsent.link_self, hwaiting⟩

end Gateway

end ForgeRelay
