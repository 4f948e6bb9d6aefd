import ForgeRelay.Proofs.Delivery.Consistency
import ForgeRelay.Proofs.Delivery.Subscriptions
import ForgeRelay.Proofs.Webhook.Publishing
import ForgeRelay.Service.Crew

/-!
# Wired hubs

A hub that was started has a link of its own for each provider of its topology, and what goes over
the links leaves it so (`Hub.Wired`).  In such a hub every endpoint that is declared is found by its
name, together with the link of the one provider that it names, and every source gets a listener.

* `Hub.connectAll_eq_ok`         which links a hub gets, if all providers can be reached;
* `Hub.start_eq_ok_iff`          which topologies a hub can be started for;
* `Hub.Wired.putLink`            a hub stays wired while its links work;
* `Hub.Wired.destination_eq_ok`  endpoints are found with the link of their provider;
* `Crew.started_startAll`        each source gets one listener;
* `Hub.start_resolves`           all of this for a hub that was just started.
-/

namespace ForgeRelay

/-- the kinds of transport that there are -/
def Provider.IsSupported (p : Provider) : Prop := p.kind = "nats" ∨ p.kind = "memory"

instance (p : Provider) : Decidable p.IsSupported := inferInstanceAs (Decidable (_ ∨ _))

namespace Hub

/-! ## connecting -/

/-- every remote provider can be reached, over a link that is its own -/
def Reaches (dial : Provider → Except DeliveryFault Link) : Prop :=
  ∀ p, p.kind = "nats" → ∃ l, dial p = .ok l ∧ l.provider = p ∧ l.broker.Sound

theorem reaches_remote (maxPayload : Nat) :
    Reaches fun p => .ok (.remote p maxPayload) :=
  fun p _ => ⟨_, rfl, rfl, Broker.sound_withLimit 0 p⟩

section
variable {dial : Provider → Except DeliveryFault Link}

theorem connect_of_memory {p : Provider} (h : p.kind = "memory") :
    connect dial p = .ok (.loopback p) := by
  unfold connect
  rw [h, if_neg (by decide), if_pos rfl]

theorem connect_of_supported (hdial : Reaches dial) {p : Provider} (h : p.IsSupported) :
    ∃ l, connect dial p = .ok l ∧ l.provider = p ∧ l.broker.Sound := by
  rcases h with h | h
  · unfold connect
    rw [if_pos h]
    exact hdial p h
  · rw [connect_of_memory h]
    exact ⟨_, rfl, rfl, Broker.sound_withLimit _ p⟩

theorem connect_of_not_supported {p : Provider} (h : ¬ p.IsSupported) :
    connect dial p = .error (unsupported p) := by
  unfold connect
  rw [if_neg fun hn => h (.inl hn), if_neg fun hm => h (.inr hm)]

/-- every provider has its link, under its name and in its place -/
theorem connectAll_eq_ok {ps : List Provider} {links : List (String × Link)} :
    connectAll dial ps = .ok links ↔
      ps.map (fun p => (p.name, connect dial p)) = links.map fun e => (e.1, .ok e.2) := by
  induction ps generalizing links with
  | nil =>
    show Except.ok [] = _ ↔ [] = _
    rw [Except.ok.injEq, eq_comm, eq_comm (a := []), List.map_eq_nil_iff]
  | cons p ps ih =>
    rw [List.map_cons, eq_comm (b := List.map _ links), List.map_eq_cons_iff]
    unfold connectAll
    cases hc : connect dial p with
    | error fault => simp [bind, Except.bind]
    | ok l =>
      cases hcs : connectAll dial ps with
      | error fault =>
        simp only [bind, Except.bind]
        constructor
        · intro h
          cases h
        · rintro ⟨e, es, -, -, hes⟩
          rw [ih.2 hes.symm] at hcs
          cases hcs
      | ok ls =>
        simp only [bind, Except.bind, pure, Except.pure, Except.ok.injEq]
        constructor
        · rintro rfl
          exact ⟨_, _, rfl, rfl, (ih.1 hcs).symm⟩
        · rintro ⟨⟨name, l'⟩, es, rfl, he, hes⟩
          cases he
          rw [Except.ok.inj (hcs.symm.trans (ih.2 hes.symm))]

theorem mem_of_connectAll {ps : List Provider} {links : List (String × Link)}
    (h : connectAll dial ps = .ok links) {p : Provider} (hp : p ∈ ps) :
    ∃ l, (p.name, l) ∈ links ∧ connect dial p = .ok l := by
  have hmem := List.mem_map_of_mem (f := fun p => (p.name, connect dial p)) hp
  rw [connectAll_eq_ok.1 h] at hmem
  obtain ⟨⟨name, l⟩, he, heq⟩ := List.mem_map.1 hmem
  obtain ⟨rfl, hl⟩ := Prod.mk.inj heq
  exact ⟨l, he, hl.symm⟩

theorem names_of_connectAll {ps : List Provider} {links : List (String × Link)}
    (h : connectAll dial ps = .ok links) : links.map Prod.fst = ps.map Provider.name := by
  have hfst := congrArg (List.map Prod.fst) (connectAll_eq_ok.1 h)
  rw [List.map_map, List.map_map] at hfst
  exact hfst.symm

theorem connectAll_of_supported (hdial : Reaches dial) {ps : List Provider}
    (h : ∀ p ∈ ps, p.IsSupported) : ∃ links, connectAll dial ps = .ok links := by
  induction ps with
  | nil => exact ⟨[], rfl⟩
  | cons p ps ih =>
    rw [List.forall_mem_cons] at h
    obtain ⟨l, hl, -⟩ := connect_of_supported hdial h.1
    obtain ⟨ls, hls⟩ := ih h.2
    unfold connectAll
    rw [hl, hls]
    exact ⟨_, rfl⟩

/-- the first provider of another kind is the one that is complained of -/
theorem connectAll_of_not_supported (hdial : Reaches dial) {before after : List Provider}
    {p : Provider} (hbefore : ∀ q ∈ before, q.IsSupported) (hp : ¬ p.IsSupported) :
    connectAll dial (before ++ p :: after) = .error (unsupported p) := by
  induction before with
  | nil =>
    rw [List.nil_append, connectAll, connect_of_not_supported hp]
    rfl
  | cons q before ih =>
    rw [List.forall_mem_cons] at hbefore
    obtain ⟨l, hl, -⟩ := connect_of_supported hdial hbefore.1
    rw [List.cons_append, connectAll, hl, ih hbefore.2]
    rfl

theorem start_eq_ok {t : Topology} {h : Hub} :
    start dial t = .ok h ↔
      t.Consistent ∧ connectAll dial t.providers = .ok h.links ∧ h.topology = t := by
  rw [← Topology.check_eq_ok_iff]
  unfold start
  obtain ⟨topology, links⟩ := h
  cases t.check with
  | error fault => simp [bind, Except.bind]
  | ok _ =>
    cases connectAll dial t.providers with
    | error fault => simp [bind, Except.bind]
    | ok ls =>
      simp only [bind, Except.bind, pure, Except.pure, Except.ok.injEq, mk.injEq, true_and]
      exact ⟨fun ⟨ht, hl⟩ => ⟨hl, ht.symm⟩, fun ⟨hl, ht⟩ => ⟨ht.symm, hl⟩⟩

theorem start_of_check_error {t : Topology} {fault : DeliveryFault} (h : t.check = .error fault) :
    start dial t = .error fault := by
  unfold start
  rw [h]
  rfl

theorem start_of_not_supported (hdial : Reaches dial) {t : Topology} (hc : t.check = .ok ())
    {before after : List Provider} {p : Provider} (ht : t.providers = before ++ p :: after)
    (hbefore : ∀ q ∈ before, q.IsSupported) (hp : ¬ p.IsSupported) :
    start dial t = .error (unsupported p) := by
  unfold start
  rw [hc, ht]
  simp only [bind, Except.bind, connectAll_of_not_supported hdial hbefore hp]

theorem start_eq_ok_iff (hdial : Reaches dial) (t : Topology) :
    (∃ h, start dial t = .ok h) ↔ t.check = .ok () ∧ ∀ p ∈ t.providers, p.IsSupported := by
  constructor
  · rintro ⟨h, hstart⟩
    obtain ⟨hc, hlinks, -⟩ := start_eq_ok.1 hstart
    refine ⟨Topology.check_eq_ok_iff.2 hc, fun p hp => Classical.byContradiction fun hno => ?_⟩
    obtain ⟨l, -, hl⟩ := mem_of_connectAll hlinks hp
    rw [connect_of_not_supported hno] at hl
    cases hl
  · rintro ⟨hc, hsupported⟩
    obtain ⟨links, hlinks⟩ := connectAll_of_supported hdial hsupported
    exact ⟨⟨t, links⟩, start_eq_ok.2 ⟨Topology.check_eq_ok_iff.1 hc, hlinks, rfl⟩⟩

end

/-! ## wired hubs -/

/-- every provider of the topology has a link of its own -/
structure Wired (h : Hub) (t : Topology) : Prop where
  topology : h.topology = t
  link : ∀ p ∈ t.providers, ∃ l, h.link? p.name = some l ∧ l.provider = p ∧ l.broker.Sound

theorem wired_start {dial : Provider → Except DeliveryFault Link} (hdial : Reaches dial)
    {t : Topology} {h : Hub} (hstart : start dial t = .ok h) : h.Wired t := by
  obtain ⟨hc, hlinks, ht⟩ := start_eq_ok.1 hstart
  have hsupported := ((start_eq_ok_iff hdial t).1 ⟨h, hstart⟩).2
  refine ⟨ht, fun p hp => ?_⟩
  obtain ⟨l, hmem, hl⟩ := mem_of_connectAll hlinks hp
  obtain ⟨l', hl', hprovider, hsound⟩ := connect_of_supported hdial (hsupported p hp)
  obtain rfl : l = l' := Except.ok.inj (hl.symm.trans hl')
  have hnames : (h.links.map Prod.fst).Nodup := names_of_connectAll hlinks ▸ hc.providers
  exact ⟨l, Keyed.lookup_of_nodup hnames hmem, hprovider, hsound⟩

/-- what goes over a link leaves a hub wired -/
theorem Wired.putLink {h : Hub} {t : Topology} (hw : h.Wired t) {name : String} {l l' : Link}
    (hl : h.link? name = some l) (hprovider : l'.provider = l.provider)
    (hsound : l'.broker.Sound) : (h.putLink name l').Wired t := by
  refine ⟨hw.topology, fun p hp => ?_⟩
  rw [link?_putLink]
  obtain ⟨lp, hlp, hlprovider, hlsound⟩ := hw.link p hp
  by_cases hn : p.name = name
  · rw [if_pos hn]
    obtain rfl : lp = l := Option.some.inj ((hn ▸ hlp).symm.trans hl)
    exact ⟨l', rfl, hprovider.trans hlprovider, hsound⟩
  · rw [if_neg hn]
    exact ⟨lp, hlp, hlprovider, hlsound⟩

/-- the link of an endpoint is that of the one provider that the endpoint names -/
theorem Wired.linkFor {h : Hub} {t : Topology} (hw : h.Wired t) (hc : t.Consistent) {e : Endpoint}
    (he : e ∈ t.destinations ∨ e ∈ t.sources) :
    ∃ l, h.link? e.provider = some l ∧ l.broker.Sound ∧
      t.providers.filter (·.name = e.provider) = [l.provider] := by
  obtain ⟨p, hp, hname⟩ := hc.exists_provider he
  obtain ⟨l, hl, rfl, hsound⟩ := hw.link p hp
  rw [← hname]
  exact ⟨l, hl, hsound, filter_of_nodup_names hc.providers hp⟩

section
variable {h : Hub} {t : Topology}

theorem Wired.destination_eq_ok (hw : h.Wired t) (hc : t.Consistent) {e : Endpoint}
    (he : e ∈ t.destinations) :
    ∃ l, h.destination e.name = .ok (e, l) ∧
      t.providers.filter (·.name = e.provider) = [l.provider] := by
  obtain ⟨l, hl, -, honly⟩ := hw.linkFor hc (.inl he)
  refine ⟨l, Hub.destination_eq_ok.2 ⟨?_, hl⟩, honly⟩
  rw [hw.topology]
  exact find?_of_nodup_names hc.destinations he

theorem Wired.source_eq_ok (hw : h.Wired t) (hc : t.Consistent) {e : Endpoint}
    (he : e ∈ t.sources) :
    ∃ l, h.source e.name = .ok (e, l) ∧ l.broker.Sound ∧
      t.providers.filter (·.name = e.provider) = [l.provider] := by
  obtain ⟨l, hl, hsound, honly⟩ := hw.linkFor hc (.inr he)
  refine ⟨l, Hub.source_eq_ok.2 ⟨?_, hl⟩, hsound, honly⟩
  rw [hw.topology]
  exact find?_of_nodup_names hc.sources he

theorem Wired.destination_eq_error (hw : h.Wired t) {name : String}
    (hn : name ∉ t.destinations.map Endpoint.name) :
    h.destination name = .error (unknownEndpoint .destination name) := by
  unfold destination Topology.destination?
  rw [hw.topology, find?_eq_none_of_not_mem hn]
  rfl

theorem Wired.source_eq_error (hw : h.Wired t) {name : String}
    (hn : name ∉ t.sources.map Endpoint.name) :
    h.source name = .error (unknownEndpoint .source name) := by
  unfold source Topology.source?
  rw [hw.topology, find?_eq_none_of_not_mem hn]
  rfl

end

end Hub

/-! ## listeners of a hub -/

/-- the listener has a channel on the link of its source, and the topic of the source feeds it -/
def Member.IsPosted (m : Member) (h : Hub) : Prop :=
  ∃ l c, h.link? m.source.provider = some l ∧ l.broker.channel? m.listener.channel = some c ∧
    c.topic = m.source.topic ∧ c.fed = true

/-- the channels that a hub has are there in another as well -/
def Hub.ChannelsIn (h after : Hub) : Prop :=
  ∀ name l id c, h.link? name = some l → l.broker.channel? id = some c →
    ∃ l', after.link? name = some l' ∧ l'.broker.channel? id = some c

theorem Member.IsPosted.mono {m : Member} {h after : Hub} (hp : m.IsPosted h)
    (hin : h.ChannelsIn after) : m.IsPosted after := by
  obtain ⟨l, c, hl, hc, htopic, hfed⟩ := hp
  obtain ⟨l', hl', hc'⟩ := hin _ l _ c hl hc
  exact ⟨l', c, hl', hc', htopic, hfed⟩

/-- opening a channel leaves the others as they are -/
theorem Hub.channelsIn_attach {h : Hub} {name : String} {l : Link} (hl : h.link? name = some l)
    (hsound : l.broker.Sound) (topic : String) :
    h.ChannelsIn (h.putLink name { l with broker := l.broker.attach topic }) := by
  intro other lo id c hlo hc
  rw [Hub.link?_putLink]
  by_cases hn : other = name
  · rw [if_pos hn]
    obtain rfl : lo = l := Option.some.inj ((hn ▸ hlo).symm.trans hl)
    refine ⟨_, rfl, ?_⟩
    have hne : id ≠ lo.broker.next := fun e => by
      have hmem := Broker.mem_of_channel? hc
      have hlt := hsound.free c hmem.1
      rw [hmem.2, e] at hlt
      exact Nat.lt_irrefl _ hlt
    rw [Broker.channel?_attach hsound.free, if_neg hne]
    exact hc
  · rw [if_neg hn]
    exact ⟨lo, hlo, hc⟩

namespace Crew

/-- what starting listeners comes to -/
structure Started (t : Topology) (es : List Endpoint) (h : Hub) (crew : Crew) (after : Hub) :
    Prop where
  wired : after.Wired t
  sources : crew.map Member.source = es
  posted : ∀ m ∈ crew, m.listener.stage = .serving ∧ m.IsPosted after
  kept : h.ChannelsIn after

theorem startAll_cons (handler : Handler) {h : Hub} {e : Endpoint} {l : Link}
    (hs : h.source e.name = .ok (e, l)) (es : List Endpoint) :
    startAll handler (e :: es) h =
      let rest := startAll handler es
        (h.putLink e.provider { l with broker := l.broker.attach e.topic })
      (⟨e, l.broker.next, .serving, fun _ => handler, []⟩ :: rest.1, rest.2) := by
  rw [startAll, hs]
  rfl

theorem started_startAll (handler : Handler) {t : Topology} (hc : t.Consistent)
    {es : List Endpoint} (hes : ∀ e ∈ es, e ∈ t.sources) {h : Hub} (hw : h.Wired t) :
    Started t es h (startAll handler es h).1 (startAll handler es h).2 := by
  induction es generalizing h with
  | nil => exact ⟨hw, rfl, fun m hm => (nomatch hm), fun _ l _ c hl hcl => ⟨l, hl, hcl⟩⟩
  | cons e es ih =>
    rw [List.forall_mem_cons] at hes
    obtain ⟨l, hs, hsound, -⟩ := hw.source_eq_ok hc hes.1
    have hl : h.link? e.provider = some l := (Hub.source_eq_ok.1 hs).2
    have hattach := Hub.channelsIn_attach hl hsound e.topic
    have hput : (h.putLink e.provider { l with broker := l.broker.attach e.topic }).Wired t :=
      hw.putLink hl rfl (hsound.attach e.topic)
    have hrest := ih hes.2 hput
    rw [startAll_cons handler hs]
    refine ⟨hrest.wired, ?_, fun m hm => ?_, fun name lo id c hlo hcl => ?_⟩
    · rw [List.map_cons, hrest.sources]
    · rcases List.mem_cons.1 hm with rfl | hm
      · refine ⟨rfl, Member.IsPosted.mono ?_ hrest.kept⟩
        refine ⟨_, ⟨l.broker.next, e.topic, l.broker.waiting e.topic, true⟩,
          (Hub.link?_putLink ..).trans (if_pos rfl), ?_, rfl, rfl⟩
        exact (Broker.channel?_attach hsound.free ..).trans (if_pos rfl)
      · exact hrest.posted m hm
    · obtain ⟨l', hl', hcl'⟩ := hattach name lo id c hlo hcl
      exact hrest.kept name l' id c hl' hcl'

end Crew

namespace Hub

/-- **A hub that was started resolves what its topology declares.**  It can be started exactly for
a topology that passes its check and has providers of known kinds only; else it is the check that
fails, or the first provider of another kind that is complained of.  Every endpoint that is declared
is found by its name, with the link of the one provider that it names, and no other name is found;
no look-up fails for want of a provider.  Each source gets one listener, in the order in which they
are declared, with a channel that its topic feeds. -/
theorem start_resolves {dial : Provider → Except DeliveryFault Link} (hdial : Reaches dial)
    (t : Topology) :
    ((∃ h, start dial t = .ok h) ↔ t.check = .ok () ∧ ∀ p ∈ t.providers, p.IsSupported) ∧
    (∀ fault, t.check = .error fault → start dial t = .error fault) ∧
    (t.check = .ok () → ∀ before p after, t.providers = before ++ p :: after →
      (∀ q ∈ before, q.IsSupported) → ¬ p.IsSupported →
        start dial t = .error (.configuration
          s!"message provider '{p.name}' has unsupported type '{p.kind}'")) ∧
    ∀ h, start dial t = .ok h →
      (∀ e ∈ t.destinations, ∃ l, h.destination e.name = .ok (e, l) ∧
        t.providers.filter (·.name = e.provider) = [l.provider]) ∧
      (∀ e ∈ t.sources, ∃ l, h.source e.name = .ok (e, l) ∧
        t.providers.filter (·.name = e.provider) = [l.provider]) ∧
      (∀ name, name ∉ t.destinations.map Endpoint.name → h.destination name =
        .error (.configuration s!"unable to find an eventDestination with the name '{name}'")) ∧
      (∀ name, name ∉ t.sources.map Endpoint.name → h.source name =
        .error (.configuration s!"unable to find an eventSource with the name '{name}'")) ∧
      (∀ name reference, h.destination name ≠ .error (.delivery (.unknownProvider reference)) ∧
        h.source name ≠ .error (.delivery (.unknownProvider reference))) ∧
      ∀ handler, (Crew.start handler h).1.map Member.source = t.sources ∧
        ∀ m ∈ (Crew.start handler h).1, m.listener.stage = .serving ∧
          m.IsPosted (Crew.start handler h).2 := by
  refine ⟨start_eq_ok_iff hdial t, fun fault => start_of_check_error,
    fun hc before p after ht hbefore hp => start_of_not_supported hdial hc ht hbefore hp,
    fun h hstart => ?_⟩
  have hc := (start_eq_ok.1 hstart).1
  have hw := wired_start hdial hstart
  refine ⟨fun e he => hw.destination_eq_ok hc he, fun e he => ?_, fun name hn => ?_,
    fun name hn => ?_, fun name reference => ⟨?_, ?_⟩, fun handler => ?_⟩
  · obtain ⟨l, hs, -, honly⟩ := hw.source_eq_ok hc he
    exact ⟨l, hs, honly⟩
  · exact hw.destination_eq_error hn
  · exact hw.source_eq_error hn
  · by_cases hn : name ∈ t.destinations.map Endpoint.name
    · obtain ⟨e, he, rfl⟩ := List.mem_map.1 hn
      obtain ⟨l, hd, -⟩ := hw.destination_eq_ok hc he
      rw [hd]
      exact nofun
    · rw [hw.destination_eq_error hn]
      exact nofun
  · by_cases hn : name ∈ t.sources.map Endpoint.name
    · obtain ⟨e, he, rfl⟩ := List.mem_map.1 hn
      obtain ⟨l, hs, -⟩ := hw.source_eq_ok hc he
      rw [hs]
      exact nofun
    · rw [hw.source_eq_error hn]
      exact nofun
  · have hcrew := Crew.started_startAll handler hc (fun e he => he) hw
    unfold Crew.start
    rw [hw.topology]
    exact ⟨hcrew.sources, hcrew.posted⟩

/-- a destination and a source of one name, each with a provider of its own -/
theorem start_resolves_mixed :
    let remote : Provider := ⟨"remote", "nats", "nats://broker", ⟨5⟩⟩
    let loop : Provider := ⟨"loop", "memory", "", ⟨5⟩⟩
    let t : Topology :=
      ⟨[remote, loop], [⟨"github", "push", "remote"⟩], [⟨"github", "push", "loop"⟩]⟩
    let dial : Provider → Except DeliveryFault Link := fun p => .ok (.remote p 1048576)
    let kafka : Provider := ⟨"queue", "kafka", "", ⟨5⟩⟩
    Reaches dial ∧ t.check = .ok () ∧ (∀ p ∈ t.providers, p.IsSupported) ∧
      (∃ h, start dial t = .ok h ∧ (∃ l, h.destination "github" =
          .ok (⟨"github", "push", "remote"⟩, l) ∧ l.provider = remote) ∧
        ∀ handler, (Crew.start handler h).1.map Member.source = t.sources) ∧
      start dial ⟨[loop, kafka], [], []⟩ =
        .error (.configuration "message provider 'queue' has unsupported type 'kafka'") := by
  intro remote loop t dial kafka
  have hdial : Reaches dial := reaches_remote 1048576
  have hcheck : t.check = .ok () := rfl
  have hsupported : ∀ p ∈ t.providers, p.IsSupported := by decide
  obtain ⟨hiff, -, -, hall⟩ := start_resolves hdial t
  obtain ⟨h, hstart⟩ := hiff.2 ⟨hcheck, hsupported⟩
  obtain ⟨hdestinations, -, -, -, -, hcrew⟩ := hall h hstart
  obtain ⟨l, hl, honly⟩ := hdestinations ⟨"github", "push", "remote"⟩ (List.mem_singleton_self _)
  refine ⟨hdial, hcheck, hsupported, ⟨h, hstart, ⟨l, hl, ?_⟩, fun handler => (hcrew handler).1⟩, ?_⟩
  · exact (List.cons.inj honly).1.symm
  · exact (start_resolves hdial ⟨[loop, kafka], [], []⟩).2.2.1 rfl [loop] kafka [] rfl
      (by decide) (by decide)

end Hub

end ForgeRelay
