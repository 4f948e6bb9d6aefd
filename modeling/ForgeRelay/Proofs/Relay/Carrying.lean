import ForgeRelay.Proofs.Delivery.SoleSource
import ForgeRelay.Proofs.Relay.Wiring

/-!
# Carrying webhooks to their sources

Requests come to a gateway while sources of the same hub are subscribed and receive.  Each step of
such a run gives at most one command to the broker of one provider (`Gateway.command?`), so that
what a run makes of a link is a run of its broker (`Gateway.Ran`), and what is known of the brokers
holds for the whole relay.

* `Gateway.Ran.perform`                one step, which is at most one command for one broker;
* `Gateway.Ran.run`                    a run, which is a run of every broker;
* `Gateway.sentTo_commandsOn`          what a run sends to a topic is what the gateway accepted;
* `Gateway.Ran.sole`, `Ran.idle`       what that means for the sources of the hub;
* `Gateway.carries_accepted_webhooks`  what was accepted comes to its source, and to no other.
-/

namespace ForgeRelay

/-- the channel of a source -/
def Hub.subscription? (h : Hub) (source : Endpoint) : Option Channel :=
  (h.link? source.provider).bind fun l => l.broker.subscription? source.name

namespace Gateway

open Broker (Command)

/-! ## runs -/

inductive Step where
  | accept (headers : Http.Headers) (body : Bytes)
  | subscribe (source : String)
  | receive (source : String)

inductive Reply where
  | answered (outcome : Except WebhookFault Acceptance)
  | subscribed (outcome : Except RelayFault Unit)
  | received (outcome : Except RelayFault Bytes)

def perform (g : Gateway) (h : Hub) : Step → Reply × Hub
  | .accept headers body =>
    (.answered (g.accept h headers body).1, (g.accept h headers body).2)
  | .subscribe name =>
    match h.source name with
    | .error fault => (.subscribed (.error fault), h)
    | .ok (node, l) => (.subscribed (.ok ()), h.putLink node.provider (l.subscribe node))
  | .receive name =>
    match h.source name with
    | .error fault => (.received (.error fault), h)
    | .ok (node, l) => (.received ((l.receive node).1.mapError .delivery),
        h.putLink node.provider (l.receive node).2)

def run (g : Gateway) (h : Hub) (steps : List Step) : Hub :=
  steps.foldl (fun h s => (g.perform h s).2) h

/-- the steps with what each of them answered -/
def replies (g : Gateway) (h : Hub) : List Step → List (Step × Reply)
  | [] => []
  | s :: ss => (s, (g.perform h s).1) :: g.replies (g.perform h s).2 ss

/-- the envelopes that were accepted, as they are sent -/
def accepted (log : List (Step × Reply)) : List Bytes :=
  log.filterMap fun
    | (.accept _ _, .answered (.ok a)) => some a.envelope.wire
    | _ => none

/-- what a source received -/
def receivedBy (name : String) (log : List (Step × Reply)) : List Bytes :=
  log.filterMap fun
    | (.receive source, .received (.ok payload)) => if source = name then some payload else none
    | _ => none

theorem run_cons (g : Gateway) (h : Hub) (s : Step) (ss : List Step) :
    g.run h (s :: ss) = g.run (g.perform h s).2 ss := rfl
theorem replies_cons (g : Gateway) (h : Hub) (s : Step) (ss : List Step) :
    g.replies h (s :: ss) = (s, (g.perform h s).1) :: g.replies (g.perform h s).2 ss := rfl

theorem run_append (g : Gateway) (h : Hub) (ss ss' : List Step) :
    g.run h (ss ++ ss') = g.run (g.run h ss) ss' := List.foldl_append

theorem map_fst_replies (g : Gateway) (h : Hub) (ss : List Step) :
    (g.replies h ss).map Prod.fst = ss := by
  induction ss generalizing h with
  | nil => rfl
  | cons s ss ih => rw [replies_cons, List.map_cons, ih]

theorem accepted_append (early late : List (Step × Reply)) :
    accepted (early ++ late) = accepted early ++ accepted late := List.filterMap_append

theorem receivedBy_append (name : String) (early late : List (Step × Reply)) :
    receivedBy name (early ++ late) = receivedBy name early ++ receivedBy name late :=
  List.filterMap_append

theorem receivedBy_receive (name : String) (source : Endpoint)
    (outcome : Except DeliveryFault Bytes) :
    receivedBy name [(.receive source.name, .received (outcome.mapError .delivery))] =
      Broker.Reply.taken name [(.receive source, .received outcome)] := by
  cases outcome <;> rfl

theorem receivedBy_of_ne {name source : String} (hne : source ≠ name) (r : Reply) :
    receivedBy name [(.receive source, r)] = [] := by
  cases r with
  | received outcome => cases outcome <;> simp [receivedBy, hne]
  | answered _ => rfl
  | subscribed _ => rfl

theorem perform_subscribe_of_source {h : Hub} {name : String} {node : Endpoint} {l : Link}
    (hs : h.source name = .ok (node, l)) (g : Gateway) :
    g.perform h (.subscribe name) =
      (.subscribed (.ok ()), h.putLink node.provider (l.subscribe node)) := by
  rw [perform, hs]

theorem perform_receive_of_source {h : Hub} {name : String} {node : Endpoint} {l : Link}
    (hs : h.source name = .ok (node, l)) (g : Gateway) :
    g.perform h (.receive name) = (.received ((l.receive node).1.mapError .delivery),
      h.putLink node.provider (l.receive node).2) := by
  rw [perform, hs]

/-- the envelope of a request that passes, as it is sent -/
def passed? (g : Gateway) (headers : Http.Headers) (body : Bytes) : Option Bytes :=
  if (g.verify headers body).isOk then
    (bodyFields body).toOption.map fun fields => (Envelope.ofRequest headers fields).wire
  else none

def wire? (g : Gateway) : Step → Option Bytes
  | .accept headers body => g.passed? headers body
  | _ => none

theorem accepted_singleton (g : Gateway) (h : Hub) (s : Step) :
    accepted [(s, (g.perform h s).1)] = (g.wire? s).toList := by
  cases s with
  | accept headers body =>
    show accepted [(.accept headers body, .answered (g.accept h headers body).1)] =
      (g.passed? headers body).toList
    unfold passed?
    cases hv : g.verify headers body with
    | error fault =>
      rw [accept_of_refused hv]
      rfl
    | ok _ =>
      cases hb : bodyFields body with
      | error fault =>
        rw [accept_of_malformed hv hb]
        rfl
      | ok fields =>
        rw [accept_of_fields hv hb]
        rfl
  | subscribe _ => rfl
  | receive _ => rfl

/-- what is accepted is for the gateway alone to say: no hub and no source has a part in it -/
theorem accepted_replies (g : Gateway) (h : Hub) (ss : List Step) :
    accepted (g.replies h ss) = ss.filterMap g.wire? := by
  induction ss generalizing h with
  | nil => rfl
  | cons s ss ih =>
    rw [replies_cons, ← List.singleton_append, accepted_append, ih, accepted_singleton,
      List.filterMap_cons]
    cases g.wire? s <;> rfl

/-! ## the commands of a run -/

section
variable (t : Topology) (d : Endpoint)

/-- what a step gave to a broker, with the name of its provider -/
def command? : Step × Reply → Option (String × Command)
  | (.accept _ _, .answered (.ok a)) =>
    if a.published then some (d.provider, .send d a.envelope.wire) else none
  | (.accept _ _, _) => none
  | (.subscribe name, _) => (t.source? name).map fun e => (e.provider, .subscribe e)
  | (.receive name, _) => (t.source? name).map fun e => (e.provider, .receive e)

def commandsOn (provider : String) (log : List (Step × Reply)) : List Command :=
  log.filterMap fun entry =>
    ((command? t d entry).filter fun c => c.1 = provider).map Prod.snd

end

section
variable {t : Topology} {d : Endpoint}

theorem commandsOn_append (provider : String) (early late : List (Step × Reply)) :
    commandsOn t d provider (early ++ late) =
      commandsOn t d provider early ++ commandsOn t d provider late := List.filterMap_append

theorem commandsOn_of_none {entry : Step × Reply} (h : command? t d entry = none)
    (provider : String) : commandsOn t d provider [entry] = [] := by
  unfold commandsOn
  rw [List.filterMap_cons, h]
  rfl

theorem commandsOn_of_some {entry : Step × Reply} {name : String} {cmd : Command}
    (h : command? t d entry = some (name, cmd)) (provider : String) :
    commandsOn t d provider [entry] = if name = provider then [cmd] else [] := by
  unfold commandsOn
  rw [List.filterMap_cons, h, Option.filter_some]
  by_cases hn : name = provider
  · rw [if_pos (decide_eq_true hn), if_pos hn]
    rfl
  · rw [if_neg (by simpa using hn), if_neg hn]
    rfl

theorem mem_commandsOn {provider : String} {log : List (Step × Reply)} {cmd : Command} :
    cmd ∈ commandsOn t d provider log ↔
      ∃ entry ∈ log, command? t d entry = some (provider, cmd) := by
  simp [commandsOn, Option.filter_eq_some_iff]

/-- the commands that steps give, and the steps that give them -/
inductive Gives (t : Topology) (d : Endpoint) : Step × Reply → String → Command → Prop where
  | send (headers : Http.Headers) (body : Bytes) (e : Envelope) :
    Gives t d (.accept headers body, .answered (.ok ⟨e, true⟩)) d.provider (.send d e.wire)
  | subscribe {e : Endpoint} (he : e ∈ t.sources) (r : Reply) :
    Gives t d (.subscribe e.name, r) e.provider (.subscribe e)
  | receive {e : Endpoint} (he : e ∈ t.sources) (r : Reply) :
    Gives t d (.receive e.name, r) e.provider (.receive e)

theorem gives_of_command? {entry : Step × Reply} {provider : String} {cmd : Command}
    (h : command? t d entry = some (provider, cmd)) : Gives t d entry provider cmd := by
  obtain ⟨s, r⟩ := entry
  cases s with
  | accept headers body =>
    cases r with
    | answered outcome =>
      cases outcome with
      | error _ => cases h
      | ok a =>
        obtain ⟨e, published⟩ := a
        cases published with
        | false => cases h
        | true =>
          obtain ⟨rfl, rfl⟩ := Prod.mk.inj (Option.some.inj h)
          exact .send headers body e
    | subscribed _ => cases h
    | received _ => cases h
  | subscribe name =>
    obtain ⟨e, he, heq⟩ := Option.map_eq_some_iff.1 h
    obtain ⟨rfl, rfl⟩ := Prod.mk.inj heq
    obtain ⟨hmem, rfl⟩ := Topology.mem_of_source? he
    exact .subscribe hmem r
  | receive name =>
    obtain ⟨e, he, heq⟩ := Option.map_eq_some_iff.1 h
    obtain ⟨rfl, rfl⟩ := Prod.mk.inj heq
    obtain ⟨hmem, rfl⟩ := Topology.mem_of_source? he
    exact .receive hmem r

/-- only what is declared is subscribed, by the step that names it -/
theorem of_subscribe_mem_commandsOn {provider : String} {log : List (Step × Reply)} {e : Endpoint}
    (h : .subscribe e ∈ commandsOn t d provider log) :
    e ∈ t.sources ∧ e.provider = provider ∧ .subscribe e.name ∈ log.map Prod.fst := by
  obtain ⟨entry, hmem, hc⟩ := mem_commandsOn.1 h
  cases gives_of_command? hc with
  | subscribe he r => exact ⟨he, rfl, List.mem_map_of_mem (f := Prod.fst) hmem⟩

theorem closeTopic_not_mem_commandsOn (provider topic : String) (log : List (Step × Reply)) :
    .closeTopic topic ∉ commandsOn t d provider log := by
  intro h
  obtain ⟨entry, -, hc⟩ := mem_commandsOn.1 h
  cases gives_of_command? hc

/-- all that was accepted was sent as well -/
def AllPublished (log : List (Step × Reply)) : Prop :=
  ∀ s a, (s, .answered (.ok a)) ∈ log → a.published = true

theorem AllPublished.mono {part log : List (Step × Reply)} (h : AllPublished log)
    (hpart : part ⊆ log) : AllPublished part := fun s a hmem => h s a (hpart hmem)

theorem AllPublished.append {early late : List (Step × Reply)} (h : AllPublished early)
    (h' : AllPublished late) : AllPublished (early ++ late) := by
  intro s a hmem
  rcases List.mem_append.1 hmem with hmem | hmem
  · exact h s a hmem
  · exact h' s a hmem

/-- without a command nothing was accepted -/
theorem accepted_of_none {entry : Step × Reply} (hp : AllPublished [entry])
    (h : command? t d entry = none) : accepted [entry] = [] := by
  obtain ⟨s, r⟩ := entry
  cases s with
  | accept headers body =>
    cases r with
    | answered outcome =>
      cases outcome with
      | error _ => rfl
      | ok a =>
        have hsent := hp _ a (List.mem_singleton_self _)
        have hnone : (if a.published then some (d.provider, Command.send d a.envelope.wire)
          else none) = none := h
        rw [if_pos hsent] at hnone
        cases hnone
    | subscribed _ => rfl
    | received _ => rfl
  | subscribe _ => rfl
  | receive _ => rfl

theorem sentTo_commandsOn_singleton {entry : Step × Reply} (hp : AllPublished [entry])
    (provider topic : String) :
    Command.sentTo topic (commandsOn t d provider [entry]) =
      if d.provider = provider ∧ d.topic = topic then accepted [entry] else [] := by
  cases hc : command? t d entry with
  | none =>
    rw [commandsOn_of_none hc, accepted_of_none hp hc, ite_self]
    rfl
  | some given =>
    obtain ⟨name, cmd⟩ := given
    rw [commandsOn_of_some hc]
    cases gives_of_command? hc with
    | send headers body e =>
      by_cases hn : d.provider = provider
      · rw [if_pos hn, Command.sentTo_send]
        by_cases ht : d.topic = topic
        · rw [if_pos ht, if_pos ⟨hn, ht⟩]
          rfl
        · rw [if_neg ht, if_neg fun h => ht h.2]
      · rw [if_neg hn, if_neg fun h => hn h.1]
        rfl
    | subscribe he r =>
      show _ = if _ then [] else []
      rw [ite_self]
      split <;> rfl
    | receive he r =>
      show _ = if _ then [] else []
      rw [ite_self]
      split <;> rfl

/-- what goes to a topic is what the gateway accepted, if the topic is that of its destination -/
theorem sentTo_commandsOn {log : List (Step × Reply)} (hp : AllPublished log)
    (provider topic : String) :
    Command.sentTo topic (commandsOn t d provider log) =
      if d.provider = provider ∧ d.topic = topic then accepted log else [] := by
  induction log with
  | nil => exact (ite_self _).symm
  | cons entry log ih =>
    have hfirst : AllPublished [entry] := hp.mono (by simp)
    have hrest := ih (hp.mono (List.subset_cons_self ..))
    rw [← List.singleton_append, commandsOn_append, Command.sentTo_append, hrest,
      sentTo_commandsOn_singleton hfirst, accepted_append]
    by_cases hd : d.provider = provider ∧ d.topic = topic
    · rw [if_pos hd, if_pos hd, if_pos hd]
    · rw [if_neg hd, if_neg hd, if_neg hd]
      rfl

/-! ## one step -/

/-- a run so far: every link works as the broker of its provider does under the commands of the
run -/
structure Ran (t : Topology) (d : Endpoint) (log : List (Step × Reply)) (h : Hub) : Prop where
  topology : h.topology = t
  loopback : h.IsLoopback
  link : ∀ p ∈ t.providers, h.link? p.name =
    some ⟨(Broker.new p).run (commandsOn t d p.name log), none⟩
  received : ∀ e ∈ t.sources, ∀ p ∈ t.providers, p.name = e.provider →
    receivedBy e.name log =
      Broker.Reply.taken e.name ((Broker.new p).replies (commandsOn t d p.name log))
  published : AllPublished log

namespace Ran

variable {log : List (Step × Reply)} {h : Hub}

/-- a step that comes to nothing -/
theorem of_none (hr : Ran t d log h) {entry : Step × Reply} (hc : command? t d entry = none)
    (hreceived : ∀ name, receivedBy name [entry] = []) (hp : AllPublished [entry]) :
    Ran t d (log ++ [entry]) h := by
  have hsame : ∀ provider, commandsOn t d provider (log ++ [entry]) =
      commandsOn t d provider log := fun provider => by
    rw [commandsOn_append, commandsOn_of_none hc, List.append_nil]
  refine ⟨hr.topology, hr.loopback, fun p hmem => ?_, fun e he p hmem hname => ?_,
    hr.published.append hp⟩
  · rw [hsame]
    exact hr.link p hmem
  · rw [hsame, receivedBy_append, hreceived, List.append_nil]
    exact hr.received e he p hmem hname

/-- a step that gives a command to a broker -/
theorem of_some (hr : Ran t d log h) (hcon : t.Consistent) {entry : Step × Reply} {p : Provider}
    (hmem : p ∈ t.providers) (cmd : Command) (hc : command? t d entry = some (p.name, cmd))
    (hown : ∀ e ∈ t.sources, p.name = e.provider → receivedBy e.name [entry] =
      Broker.Reply.taken e.name
        [(cmd, (((Broker.new p).run (commandsOn t d p.name log)).perform cmd).1)])
    (hother : ∀ e ∈ t.sources, p.name ≠ e.provider → receivedBy e.name [entry] = [])
    (hp : AllPublished [entry]) :
    Ran t d (log ++ [entry]) (h.putLink p.name
      ⟨(((Broker.new p).run (commandsOn t d p.name log)).perform cmd).2, none⟩) := by
  have hmore : commandsOn t d p.name (log ++ [entry]) = commandsOn t d p.name log ++ [cmd] := by
    rw [commandsOn_append, commandsOn_of_some hc, if_pos rfl]
  have hsame : ∀ provider, p.name ≠ provider → commandsOn t d provider (log ++ [entry]) =
      commandsOn t d provider log := fun provider hne => by
    rw [commandsOn_append, commandsOn_of_some hc, if_neg hne, List.append_nil]
  refine ⟨hr.topology, hr.loopback.putLink _ rfl, fun q hq => ?_, fun e he q hq hname => ?_,
    hr.published.append hp⟩
  · rw [Hub.link?_putLink]
    by_cases hn : q.name = p.name
    · obtain rfl := List.inj_on_of_nodup_map hcon.providers hq hmem hn
      rw [if_pos rfl, hmore, Broker.run_append]
      rfl
    · rw [if_neg hn, hsame q.name (Ne.symm hn)]
      exact hr.link q hq
  · rw [receivedBy_append, hr.received e he q hq hname]
    by_cases hn : q.name = p.name
    · obtain rfl := List.inj_on_of_nodup_map hcon.providers hq hmem hn
      rw [hown e he hname, hmore, Broker.replies_append, Broker.Reply.taken_append]
      rfl
    · rw [hother e he (hname ▸ Ne.symm hn), hsame q.name (Ne.symm hn), List.append_nil]

theorem subscription? (hr : Ran t d log h) {p : Provider} (hp : p ∈ t.providers) {e : Endpoint}
    (hname : p.name = e.provider) :
    h.subscription? e =
      ((Broker.new p).run (commandsOn t d p.name log)).subscription? e.name := by
  unfold Hub.subscription?
  rw [← hname, hr.link p hp]
  rfl

theorem source_eq_ok (hr : Ran t d log h) (hcon : t.Consistent) {name : String} {e : Endpoint}
    (hs : t.source? name = some e) :
    ∃ p ∈ t.providers, p.name = e.provider ∧
      h.source name = .ok (e, ⟨(Broker.new p).run (commandsOn t d p.name log), none⟩) := by
  obtain ⟨p, hp, hname⟩ := hcon.exists_provider (.inr (Topology.mem_of_source? hs).1)
  refine ⟨p, hp, hname, Hub.source_eq_ok.2 ⟨?_, ?_⟩⟩
  · rw [hr.topology]
    exact hs
  · rw [← hname]
    exact hr.link p hp

theorem source_eq_error (hr : Ran t d log h) {name : String} (hs : t.source? name = none) :
    h.source name = .error (Hub.unknownEndpoint .source name) := by
  unfold Hub.source
  rw [hr.topology, hs]
  rfl

theorem accept (hr : Ran t d log h) (hcon : t.Consistent) {g : Gateway} (hmem : d ∈ t.destinations)
    (hd : t.destination? g.destination = some d) (headers : Http.Headers) (body : Bytes) :
    Ran t d (log ++ [(.accept headers body, .answered (g.accept h headers body).1)])
      (g.accept h headers body).2 := by
  cases hpass : g.passes (headers, body) with
  | false =>
    obtain ⟨fault, ha⟩ := accept_of_not_passes hpass
    rw [ha h]
    exact hr.of_none rfl (fun _ => rfl) (by simp [AllPublished])
  | true =>
    obtain ⟨e, ha⟩ := accept_of_passes hpass
    obtain ⟨p, hp, hname⟩ := hcon.exists_provider (.inl hmem)
    have hdest : h.destination g.destination =
        .ok (d, ⟨(Broker.new p).run (commandsOn t d p.name log), none⟩) := by
      refine Hub.destination_eq_ok.2 ⟨?_, ?_⟩
      · rw [hr.topology]
        exact hd
      · rw [← hname]
        exact hr.link p hp
    rw [ha h, publish_of_destination hr.loopback hdest, ← hname]
    exact hr.of_some hcon hp (.send d e.wire) (by rw [hname]; rfl) (fun _ _ _ => rfl)
      (fun _ _ _ => rfl) (by simp [AllPublished, Except.isOk, Except.toBool])

theorem subscribe (hr : Ran t d log h) (hcon : t.Consistent) (g : Gateway) (name : String) :
    Ran t d (log ++ [(.subscribe name, (g.perform h (.subscribe name)).1)])
      (g.perform h (.subscribe name)).2 := by
  cases hs : t.source? name with
  | none =>
    have hperform : g.perform h (.subscribe name) =
        (.subscribed (.error (Hub.unknownEndpoint .source name)), h) := by
      rw [Gateway.perform, hr.source_eq_error hs]
    rw [hperform]
    exact hr.of_none (by rw [command?, hs]; rfl) (fun _ => rfl) (by simp [AllPublished])
  | some e =>
    obtain ⟨p, hp, hname, hsource⟩ := hr.source_eq_ok hcon hs
    rw [perform_subscribe_of_source hsource, ← hname]
    exact hr.of_some hcon hp (.subscribe e) (by rw [command?, hs, hname]; rfl)
      (fun _ _ _ => rfl) (fun _ _ _ => rfl) (by simp [AllPublished])

theorem receive (hr : Ran t d log h) (hcon : t.Consistent) (g : Gateway) (name : String) :
    Ran t d (log ++ [(.receive name, (g.perform h (.receive name)).1)])
      (g.perform h (.receive name)).2 := by
  cases hs : t.source? name with
  | none =>
    have hperform : g.perform h (.receive name) =
        (.received (.error (Hub.unknownEndpoint .source name)), h) := by
      rw [Gateway.perform, hr.source_eq_error hs]
    rw [hperform]
    exact hr.of_none (by rw [command?, hs]; rfl) (fun _ => rfl) (by simp [AllPublished])
  | some e =>
    obtain ⟨p, hp, hname, hsource⟩ := hr.source_eq_ok hcon hs
    obtain ⟨hmem, rfl⟩ := Topology.mem_of_source? hs
    rw [perform_receive_of_source hsource, ← hname]
    refine hr.of_some hcon hp (.receive e) (by rw [command?, hs, hname]; rfl)
      (fun e' he' hprovider => ?_) (fun e' he' hprovider => ?_) (by simp [AllPublished])
    · exact receivedBy_receive e'.name e _
    · have hne : e.name ≠ e'.name := fun hn =>
        hprovider (hname.trans
          (congrArg Endpoint.provider (List.inj_on_of_nodup_map hcon.sources hmem he' hn)))
      exact receivedBy_of_ne hne _

theorem perform (hr : Ran t d log h) (hcon : t.Consistent) {g : Gateway} (hmem : d ∈ t.destinations)
    (hd : t.destination? g.destination = some d) (s : Step) :
    Ran t d (log ++ [(s, (g.perform h s).1)]) (g.perform h s).2 := by
  cases s with
  | accept headers body => exact hr.accept hcon hmem hd headers body
  | subscribe name => exact hr.subscribe hcon g name
  | receive name => exact hr.receive hcon g name

theorem run (hr : Ran t d log h) (hcon : t.Consistent) {g : Gateway} (hmem : d ∈ t.destinations)
    (hd : t.destination? g.destination = some d) (ss : List Step) :
    Ran t d (log ++ g.replies h ss) (g.run h ss) := by
  induction ss generalizing log h with
  | nil => exact (List.append_nil log).symm ▸ hr
  | cons s ss ih =>
    rw [replies_cons, run_cons, ← List.singleton_append, ← List.append_assoc]
    exact ih (hr.perform hcon hmem hd s)

end Ran

/-! ## whole runs -/

/-- with providers in memory only, every link of a new hub is that of a new broker -/
theorem ran_start {dial : Provider → Except DeliveryFault Link} {h : Hub}
    (hstart : Hub.start dial t = .ok h) (hmemory : ∀ p ∈ t.providers, p.kind = "memory") :
    Ran t d [] h := by
  obtain ⟨hcon, hlinks, ht⟩ := Hub.start_eq_ok.1 hstart
  have hnames : (h.links.map Prod.fst).Nodup := Hub.names_of_connectAll hlinks ▸ hcon.providers
  refine ⟨ht, fun e he => ?_, fun p hp => ?_, fun _ _ _ _ _ => rfl, fun _ _ hmem => (nomatch hmem)⟩
  · have hmem := List.mem_map_of_mem (f := fun e => (e.1, Except.ok (ε := DeliveryFault) e.2)) he
    rw [← Hub.connectAll_eq_ok.1 hlinks] at hmem
    obtain ⟨p, hp, heq⟩ := List.mem_map.1 hmem
    have hl := (Prod.mk.inj heq).2
    rw [Hub.connect_of_memory (hmemory p hp)] at hl
    exact Except.ok.inj hl ▸ rfl
  · obtain ⟨l, hmem, hl⟩ := Hub.mem_of_connectAll hlinks hp
    rw [Hub.connect_of_memory (hmemory p hp)] at hl
    obtain rfl := Except.ok.inj hl
    exact Keyed.lookup_of_nodup hnames hmem

/-- while nothing subscribes to the topic of a source, nothing subscribes under its name either -/
theorem not_opens_of_mem_commandsOn (hcon : t.Consistent) {s : Endpoint} (hs : s ∈ t.sources)
    {log : List (Step × Reply)}
    (hsole : ∀ e ∈ t.sources, e.provider = s.provider → e.topic = s.topic →
      .subscribe e.name ∉ log.map Prod.fst)
    {cmd : Command} (hcmd : cmd ∈ commandsOn t d s.provider log) :
    cmd.opens s.topic = false ∧ cmd.renews s.name = false := by
  cases cmd with
  | subscribe e =>
    obtain ⟨he, hprovider, hstep⟩ := of_subscribe_mem_commandsOn hcmd
    have htopic : e.topic ≠ s.topic := fun h => hsole e he hprovider h hstep
    have hname : e.name ≠ s.name := fun h =>
      htopic (congrArg Endpoint.topic (List.inj_on_of_nodup_map hcon.sources he hs h))
    exact ⟨decide_eq_false htopic, decide_eq_false hname⟩
  | _ => exact ⟨rfl, rfl⟩

/-- the commands of a run leave alone the sources that are not of the topic of the destination -/
theorem spares_of_mem_commandsOn (hcon : t.Consistent) {e : Endpoint} (he : e ∈ t.sources)
    (hne : e.provider ≠ d.provider ∨ e.topic ≠ d.topic) {log : List (Step × Reply)}
    {cmd : Command} (hcmd : cmd ∈ commandsOn t d e.provider log) : cmd.spares e := by
  obtain ⟨entry, hmem, hc⟩ := mem_commandsOn.1 hcmd
  refine ⟨?_, fun other hother hname => ?_⟩
  · generalize hp : e.provider = provider at hc
    cases gives_of_command? hc with
    | send headers body envelope =>
      have htopic : d.topic ≠ e.topic := hne.elim (absurd hp) Ne.symm
      rw [Command.sentTo_send, if_neg htopic]
    | subscribe _ _ => rfl
    | receive _ _ => rfl
  · have hin := (of_subscribe_mem_commandsOn (hother ▸ hcmd)).1
    exact congrArg Endpoint.topic (List.inj_on_of_nodup_map hcon.sources hin he hname)

/-- the only source of the topic of the destination, in a run that subscribes it once -/
theorem Ran.sole {h : Hub} {early late : List (Step × Reply)} {s : Endpoint} {r : Reply}
    (hr : Ran t d (early ++ (.subscribe s.name, r) :: late) h) (hcon : t.Consistent)
    (hs : s ∈ t.sources) (hprovider : d.provider = s.provider) (htopic : d.topic = s.topic)
    (hsole : ∀ e ∈ t.sources, e.provider = s.provider → e.topic = s.topic →
      .subscribe e.name ∉ early.map Prod.fst ∧ .subscribe e.name ∉ late.map Prod.fst) :
    ∃ channel, h.subscription? s = some channel ∧
      receivedBy s.name (early ++ late) ++ channel.queue =
        Broker.keepLast 1024 (accepted early) ++ accepted late := by
  obtain ⟨p, hp, hname⟩ := hcon.exists_provider (.inr hs)
  have hsource : t.source? s.name = some s := find?_of_nodup_names hcon.sources hs
  have hcommand : command? t d (.subscribe s.name, r) = some (p.name, .subscribe s) := by
    rw [command?, hsource, hname]
    rfl
  have hcommands : commandsOn t d p.name (early ++ (.subscribe s.name, r) :: late) =
      commandsOn t d p.name early ++ .subscribe s :: commandsOn t d p.name late := by
    show commandsOn t d p.name (early ++ ([_] ++ late)) = _
    rw [commandsOn_append, commandsOn_append, commandsOn_of_some hcommand, if_pos rfl,
      List.singleton_append]
  have hearly : ∀ cmd ∈ commandsOn t d p.name early,
      cmd.opens s.topic = false ∧ cmd.renews s.name = false := fun cmd hcmd =>
    not_opens_of_mem_commandsOn hcon hs (fun e he hp ht => (hsole e he hp ht).1) (hname ▸ hcmd)
  have hlate : ∀ cmd ∈ commandsOn t d p.name late, cmd.renews s.name = false := fun cmd hcmd =>
    (not_opens_of_mem_commandsOn hcon hs (fun e he hp ht => (hsole e he hp ht).2)
      (hname ▸ hcmd)).2
  obtain ⟨channel, hchannel, hstream⟩ := Broker.sole_subscription Broker.defaultLimit p s hearly
    hlate (closeTopic_not_mem_commandsOn p.name s.topic late)
  have hcarried : d.provider = p.name ∧ d.topic = s.topic := ⟨hprovider.trans hname.symm, htopic⟩
  rw [← hcommands, sentTo_commandsOn (hr.published.mono (List.subset_append_left ..)),
    sentTo_commandsOn (hr.published.mono fun entry hmem =>
      List.mem_append_right _ (List.mem_cons_of_mem _ hmem)),
    if_pos hcarried, if_pos hcarried] at hstream
  have hreceived := hr.received s hs p hp hname
  rw [receivedBy_append] at hreceived
  refine ⟨channel, (hr.subscription? hp hname).trans (hcommands ▸ hchannel), ?_⟩
  rw [receivedBy_append]
  exact (congrArg (· ++ channel.queue) hreceived).trans hstream

/-- the sources of other topics and other providers -/
theorem Ran.idle {h : Hub} {log : List (Step × Reply)} (hr : Ran t d log h) (hcon : t.Consistent)
    {e : Endpoint} (he : e ∈ t.sources) (hne : e.provider ≠ d.provider ∨ e.topic ≠ d.topic) :
    receivedBy e.name log = [] ∧
      ∀ channel, h.subscription? e = some channel → channel.queue = [] := by
  obtain ⟨p, hp, hname⟩ := hcon.exists_provider (.inr he)
  have hspares : ∀ cmd ∈ commandsOn t d p.name log, cmd.spares e := fun cmd hcmd =>
    spares_of_mem_commandsOn hcon he hne (hname ▸ hcmd)
  obtain ⟨hidle, htaken⟩ := Broker.idle_run Broker.defaultLimit p hspares
  refine ⟨(hr.received e he p hp hname).trans htaken, fun channel hchannel => ?_⟩
  rw [hr.subscription? hp hname] at hchannel
  exact (hidle.channel channel hchannel).2

/-- **What a relay accepts comes to the source of its topic.**  A hub with providers in memory only
was started, and a gateway sends to one of its destinations.  In a run of requests, subscriptions
and receives the source `s` of the topic of the destination is subscribed once, and no other source
of this topic of this provider is.  What `s` received, with what still waits for it, is then the
latest of what was accepted before its subscription, up to 1024, and all that was accepted after it,
in order.  Sources of other topics or other providers receive nothing. -/
theorem carries_accepted_webhooks {dial : Provider → Except DeliveryFault Link} {t : Topology}
    {h : Hub} (hstart : Hub.start dial t = .ok h)
    (hmemory : ∀ p ∈ t.providers, p.kind = "memory") {d s : Endpoint} (hd : d ∈ t.destinations)
    (hs : s ∈ t.sources) (hprovider : s.provider = d.provider) (htopic : s.topic = d.topic)
    (secret : Option String) {before after : List Step}
    (hsole : ∀ e ∈ t.sources, e.provider = d.provider → e.topic = d.topic →
      .subscribe e.name ∉ before ++ after) :
    let g : Gateway := ⟨d.name, secret⟩
    let opened := g.run h (before ++ [.subscribe s.name])
    let early := g.replies h before
    let late := g.replies opened after
    let final := g.run opened after
    (∃ channel, final.subscription? s = some channel ∧
      receivedBy s.name (early ++ late) ++ channel.queue =
        Broker.keepLast 1024 (accepted early) ++ accepted late) ∧
    ∀ e ∈ t.sources, e.provider ≠ d.provider ∨ e.topic ≠ d.topic →
      receivedBy e.name (early ++ late) = [] ∧
        ∀ channel, final.subscription? e = some channel → channel.queue = [] := by
  intro g opened early late final
  have hcon := (Hub.start_eq_ok.1 hstart).1
  let r := (g.perform (g.run h before) (.subscribe s.name)).1
  have hopened : opened = (g.perform (g.run h before) (.subscribe s.name)).2 :=
    run_append g h before [.subscribe s.name]
  have hdest : t.destination? g.destination = some d := find?_of_nodup_names hcon.destinations hd
  have hran : Ran t d (early ++ (.subscribe s.name, r) :: late) final := by
    have hearly := (ran_start hstart hmemory).run hcon hd hdest before
    have hstep := hearly.perform hcon hd hdest (.subscribe s.name)
    rw [← hopened, List.nil_append] at hstep
    have hlate := hstep.run hcon hd hdest after
    rwa [List.append_assoc, List.singleton_append] at hlate
  refine ⟨hran.sole hcon hs hprovider.symm htopic.symm fun e he hp ht => ?_, fun e he hne => ?_⟩
  · have hno := hsole e he (hp.trans hprovider) (ht.trans htopic)
    rw [List.mem_append, not_or] at hno
    rw [map_fst_replies, map_fst_replies]
    exact hno
  · obtain ⟨hnothing, hqueue⟩ := hran.idle hcon he hne
    refine ⟨?_, hqueue⟩
    rw [receivedBy_append] at hnothing ⊢
    exact hnothing

/-- two providers have a topic of one name: what comes for one goes past the source of the other -/
theorem carries_past_the_other_provider :
    let loop : Provider := ⟨"loop", "memory", "", ⟨5⟩⟩
    let side : Provider := ⟨"side", "memory", "", ⟨5⟩⟩
    let consumer : Endpoint := ⟨"consumer", "push", "loop"⟩
    let stranger : Endpoint := ⟨"stranger", "push", "side"⟩
    let t : Topology := ⟨[loop, side], [⟨"github", "push", "loop"⟩], [stranger, consumer]⟩
    let h : Hub := ⟨t, [("loop", .loopback loop), ("side", .loopback side)]⟩
    let g : Gateway := ⟨"github", none⟩
    let before : List Step := [.accept [] [0x7b, 0x7d], .subscribe "stranger", .accept [] [0x5b]]
    let after : List Step := [.receive "consumer", .accept [] [0x7b, 0x7d], .receive "stranger"]
    let opened := g.run h (before ++ [.subscribe "consumer"])
    let log := g.replies h before ++ g.replies opened after
    let wire := (Envelope.ofRequest [] []).wire
    Hub.start (fun p => .ok (.remote p 0)) t = .ok h ∧
      (∀ p ∈ t.providers, p.kind = "memory") ∧
      (∀ e ∈ t.sources, e.provider = "loop" → e.topic = "push" →
        .subscribe e.name ∉ before ++ after) ∧
      (∃ channel, (g.run opened after).subscription? consumer = some channel ∧
        receivedBy "consumer" log ++ channel.queue = [wire, wire]) ∧
      receivedBy "stranger" log = [] := by
  intro loop side consumer stranger t h g before after opened log wire
  have hstart : Hub.start (fun p => .ok (.remote p 0)) t = .ok h := rfl
  have hmemory : ∀ p ∈ t.providers, p.kind = "memory" := by decide
  have hsole : ∀ e ∈ t.sources, e.provider = "loop" → e.topic = "push" →
      .subscribe e.name ∉ before ++ after := by
    intro e he hprovider _
    simp [t, stranger, consumer] at he
    rcases he with rfl | rfl
    · exact absurd hprovider (by decide)
    · simp [before, after]
  obtain ⟨hconsumer, hothers⟩ := carries_accepted_webhooks hstart hmemory
    (d := ⟨"github", "push", "loop"⟩) (s := consumer) (List.mem_singleton_self _) (by simp [t])
    rfl rfl none hsole
  refine ⟨hstart, hmemory, hsole, ?_, ?_⟩
  · have hearly : before.filterMap g.wire? = [wire] := rfl
    have hlate : after.filterMap g.wire? = [wire] := rfl
    rw [accepted_replies, accepted_replies, hearly, hlate,
      Broker.keepLast_of_length_le (by simp)] at hconsumer
    exact hconsumer
  · exact (hothers stranger (by simp [t]) (.inl (by decide))).1

end

end Gateway

end ForgeRelay
