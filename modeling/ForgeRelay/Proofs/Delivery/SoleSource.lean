import ForgeRelay.Proofs.Delivery.Backlog
import ForgeRelay.Proofs.Delivery.Stream

/-!
# The only source of a topic

Here a topic has one source, which is subscribed once.  What is sent to the topic before waits in
its backlog, up to the limit, and the source takes the backlog over; what is sent afterwards goes to
the channel of the source.

* `Broker.Keeping`            a topic without a receiver, and what was sent to it;
* `Broker.Idle`               a source for which nothing waits;
* `Broker.sole_subscription`  all that the only source of a topic receives;
* `Broker.idle_run`           a source to whose topic nothing is sent receives nothing.
-/

namespace ForgeRelay.Broker

/-- whether the command opens a channel on the topic -/
def Command.opens (topic : String) : Command → Bool
  | .subscribe source => source.topic = topic
  | _ => false

theorem Command.sentTo_append (topic : String) (early late : List Command) :
    sentTo topic (early ++ late) = sentTo topic early ++ sentTo topic late := List.filterMap_append

theorem Command.sentTo_send (topic : String) (destination : Endpoint) (payload : Bytes) :
    sentTo topic [.send destination payload] =
      if destination.topic = topic then [payload] else [] := by
  by_cases ht : destination.topic = topic <;> simp [sentTo, ht]

theorem Reply.taken_append (name : String) (early late : List (Command × Reply)) :
    taken name (early ++ late) = taken name early ++ taken name late := List.filterMap_append

theorem run_append (b : Broker) (cmds cmds' : List Command) :
    b.run (cmds ++ cmds') = (b.run cmds).run cmds' := List.foldl_append

theorem replies_append (b : Broker) (cmds cmds' : List Command) :
    b.replies (cmds ++ cmds') = b.replies cmds ++ (b.run cmds).replies cmds' := by
  induction cmds generalizing b with
  | nil => rfl
  | cons cmd cmds ih => rw [List.cons_append, replies_cons, ih, replies_cons, run_cons,
      List.cons_append]

/-! ## a topic without a receiver -/

theorem within_receive (b : Broker) (name : String) : (b.receive name).2.Within b := by
  rw [receive_snd]
  split
  · exact .refl b
  · exact b.within_pull _

theorem limit_perform (b : Broker) (cmd : Command) : (b.perform cmd).2.limit = b.limit := by
  cases cmd with
  | send destination payload => exact b.limit_send destination.topic payload
  | subscribe source => exact (b.within_subscribe source).limit
  | receive source => exact (b.within_receive source.name).limit
  | closeTopic _ => rfl
  | backlogLength _ => rfl

theorem limit_run (b : Broker) (cmds : List Command) : (b.run cmds).limit = b.limit := by
  induction cmds generalizing b with
  | nil => rfl
  | cons cmd cmds ih => rw [run_cons, ih, limit_perform]

/-- only subscribing a source makes its topic heard -/
theorem heardBy_of_perform {b : Broker} {topic : String} {cmd : Command}
    (hc : cmd.opens topic = false) {id : Nat} (h : (b.perform cmd).2.HeardBy topic id) :
    b.HeardBy topic id := by
  cases cmd with
  | send _ _ => exact heardBy_of_send h
  | subscribe source =>
    have hne : topic ≠ source.topic := fun e => by simp [Command.opens, e] at hc
    exact heardBy_of_attach hne ((b.within_subscribe source).heard topic id h)
  | receive source => exact (b.within_receive source.name).heard topic id h
  | closeTopic t => exact (b.within_closeTopic t).heard topic id h
  | backlogLength _ => exact h

/-- a command that sends nothing to a topic and opens no channel on it leaves its backlog alone -/
theorem waiting_perform_of_quiet (b : Broker) {topic : String} {cmd : Command}
    (hc : cmd.opens topic = false) (hs : Command.sentTo topic [cmd] = []) :
    (b.perform cmd).2.waiting topic = b.waiting topic := by
  cases cmd with
  | send destination payload =>
    refine (b.waiting_send destination.topic topic payload).trans (if_neg fun h => ?_)
    rw [Command.sentTo_send, if_pos h.2.symm] at hs
    cases hs
  | subscribe source =>
    have hne : topic ≠ source.topic := fun e => by simp [Command.opens, e] at hc
    exact ((b.within_subscribe source).waiting_eq topic).trans
      ((b.waiting_attach source.topic topic).trans (if_neg hne))
  | receive source => exact (b.within_receive source.name).waiting_eq topic
  | closeTopic t => exact (b.within_closeTopic t).waiting_eq topic
  | backlogLength _ => rfl

/-- the topic has no receiver, and the latest of what was sent to it waits for one -/
structure Keeping (b : Broker) (topic : String) (sent : List Bytes) : Prop where
  unheard : b.isHeard topic = false
  waiting : b.waiting topic = keepLast b.limit sent

theorem keeping_withLimit (limit : Nat) (provider : Provider) (topic : String) :
    (withLimit limit provider).Keeping topic [] := ⟨rfl, (keepLast_nil limit).symm⟩

theorem Keeping.perform {b : Broker} {topic : String} {sent : List Bytes}
    (h : b.Keeping topic sent) {cmd : Command} (hc : cmd.opens topic = false) :
    (b.perform cmd).2.Keeping topic (sent ++ Command.sentTo topic [cmd]) := by
  refine ⟨Bool.eq_false_iff.2 fun hheard => ?_, ?_⟩
  · obtain ⟨id, hid⟩ := isHeard_iff.1 hheard
    have hbefore := isHeard_iff.2 ⟨id, heardBy_of_perform hc hid⟩
    rw [h.unheard] at hbefore
    cases hbefore
  · rw [limit_perform]
    by_cases hs : Command.sentTo topic [cmd] = []
    · rw [b.waiting_perform_of_quiet hc hs, h.waiting, hs, List.append_nil]
    · cases cmd with
      | send destination payload =>
        by_cases ht : destination.topic = topic
        · rw [Command.sentTo_send, if_pos ht]
          refine (b.waiting_send destination.topic topic payload).trans ?_
          rw [ht, if_pos ⟨h.unheard, rfl⟩, h.waiting, keepLast_keepLast_append]
        · exact absurd ((Command.sentTo_send ..).trans (if_neg ht)) hs
      | _ => exact absurd rfl hs

theorem Keeping.run {b : Broker} {topic : String} {sent : List Bytes} (h : b.Keeping topic sent)
    {cmds : List Command} (hc : ∀ cmd ∈ cmds, cmd.opens topic = false) :
    (b.run cmds).Keeping topic (sent ++ Command.sentTo topic cmds) := by
  induction cmds generalizing b sent with
  | nil => exact (List.append_nil sent).symm ▸ h
  | cons cmd cmds ih =>
    rw [List.forall_mem_cons] at hc
    rw [run_cons, ← List.singleton_append, Command.sentTo_append, ← List.append_assoc]
    exact ih (h.perform hc.1) hc.2

/-! ## the only source -/

theorem taken_singleton_of_not_subscribed {b : Broker} (h : b.Sound) {name : String}
    (hnone : b.subscription? name = none) (cmd : Command) :
    Reply.taken name [(cmd, (b.perform cmd).1)] = [] := by
  cases cmd with
  | receive source =>
    show Reply.taken name [(.receive source, .received (b.receive source.name).1)] = []
    by_cases hn : source.name = name
    · rw [hn, h.receive_fst, hnone]
      rfl
    · cases (b.receive source.name).1 <;> simp [Reply.taken, hn]
  | _ => rfl

/-- a source takes nothing before it is subscribed -/
theorem taken_of_not_subscribed {b : Broker} (h : b.Sound) {name : String}
    (hnone : b.subscription? name = none) {cmds : List Command}
    (hr : ∀ cmd ∈ cmds, cmd.renews name = false) : Reply.taken name (b.replies cmds) = [] := by
  induction cmds generalizing b with
  | nil => rfl
  | cons cmd cmds ih =>
    rw [List.forall_mem_cons] at hr
    have hnext : (b.perform cmd).2.subscription? name = none := by
      rw [subscription?_perform_of_not_renews h hr.1, hnone]
      rfl
    have hfirst := taken_singleton_of_not_subscribed h hnone cmd
    rw [replies_cons, ← List.singleton_append, Reply.taken_append, hfirst,
      ih (h.perform cmd) hnext hr.2]
    rfl

/-- **The only source of a topic.**  It is subscribed once, and no other source is subscribed on its
topic.  All that it receives, with what waits on its channel at the end, is the backlog that the
messages before its subscription left, and then every message after it. -/
theorem sole_subscription (limit : Nat) (provider : Provider) (source : Endpoint)
    {before after : List Command}
    (hbefore : ∀ cmd ∈ before, cmd.opens source.topic = false ∧ cmd.renews source.name = false)
    (hafter : ∀ cmd ∈ after, cmd.renews source.name = false)
    (hclose : .closeTopic source.topic ∉ after) :
    let b := withLimit limit provider
    let cmds := before ++ .subscribe source :: after
    ∃ channel, (b.run cmds).subscription? source.name = some channel ∧
      Reply.taken source.name (b.replies cmds) ++ channel.queue =
        keepLast limit (Command.sentTo source.topic before) ++
          Command.sentTo source.topic after := by
  intro b cmds
  have hnew : b.Sound := sound_withLimit limit provider
  have hstart := hnew.run before
  have hopened := hstart.perform (.subscribe source)
  have hkept := (keeping_withLimit limit provider source.topic).run fun cmd h => (hbefore cmd h).1
  have hwaiting : (b.run before).waiting source.topic =
      keepLast limit (Command.sentTo source.topic before) := by
    rw [hkept.waiting, limit_run, List.nil_append]
    rfl
  let fresh : Channel :=
    ⟨(b.run before).next, source.topic, (b.run before).waiting source.topic, true⟩
  have hfresh : ((b.run before).perform (.subscribe source)).2.subscription? source.name =
      some fresh :=
    (hstart.subscription?_subscribe source source.name).trans (if_pos rfl)
  have hnothing : Reply.taken source.name (b.replies before) = [] :=
    taken_of_not_subscribed hnew rfl fun cmd h => (hbefore cmd h).2
  have hall : Command.untilClosed source.topic after = after :=
    List.takeWhile_eq_self_iff.2 fun cmd hcmd => decide_eq_true fun e => hclose (e ▸ hcmd)
  refine ⟨fresh.followAll source.name after, ?_, ?_⟩
  · rw [run_append, run_cons]
    exact subscription?_run hopened hafter hfresh
  · have hgiven := Channel.given_append_queue source.name fresh after
    rw [replies_append, Reply.taken_append, hnothing, List.nil_append, replies_cons,
      ← List.singleton_append, Reply.taken_append, taken_replies hopened hafter hfresh, ← hwaiting]
    refine hgiven.trans ?_
    rw [if_pos rfl, hall]

/-! ## the other sources -/

/-- nothing waits for the source, neither on its topic nor on its channel -/
structure Idle (b : Broker) (source : Endpoint) : Prop where
  waiting : b.waiting source.topic = []
  channel : ∀ c, b.subscription? source.name = some c → c.topic = source.topic ∧ c.queue = []

/-- nothing is sent to the topic of the source, and nothing else is subscribed under its name -/
def Command.spares (source : Endpoint) (cmd : Command) : Prop :=
  sentTo source.topic [cmd] = [] ∧
    ∀ other, cmd = .subscribe other → other.name = source.name → other.topic = source.topic

theorem Idle.perform {b : Broker} (h : b.Sound) {source : Endpoint} (hi : b.Idle source)
    {cmd : Command} (hc : cmd.spares source) :
    (b.perform cmd).2.Idle source ∧ Reply.taken source.name [(cmd, (b.perform cmd).1)] = [] := by
  have hwaiting : (b.perform cmd).2.waiting source.topic = [] := by
    cases ho : cmd.opens source.topic with
    | false => rw [b.waiting_perform_of_quiet ho hc.1, hi.waiting]
    | true =>
      cases cmd with
      | subscribe other =>
        have ht : source.topic = other.topic := (of_decide_eq_true ho).symm
        refine ((b.within_subscribe other).waiting_eq source.topic).trans ?_
        rw [waiting_attach, if_pos ht]
      | _ => cases ho
  cases hr : cmd.renews source.name with
  | true =>
    cases cmd with
    | subscribe other =>
      have hn : other.name = source.name := of_decide_eq_true hr
      have ht := hc.2 other rfl hn
      refine ⟨⟨hwaiting, fun c hsub => ?_⟩, rfl⟩
      have hnew := (h.subscription?_subscribe other source.name).symm.trans hsub
      rw [if_pos hn] at hnew
      obtain rfl := Option.some.inj hnew
      exact ⟨ht, ht ▸ hi.waiting⟩
    | _ => cases hr
  | false =>
    have hnext := subscription?_perform_of_not_renews h hr
    cases hsub : b.subscription? source.name with
    | none =>
      refine ⟨⟨hwaiting, fun c hc => ?_⟩, taken_singleton_of_not_subscribed h hsub cmd⟩
      rw [hnext, hsub] at hc
      cases hc
    | some c =>
      obtain ⟨ht, hq⟩ := hi.channel c hsub
      -- nothing was on the channel and nothing came
      have hflow := Channel.givenBy_append_queue source.name c cmd
      rw [ht, hc.1, hq, ite_self, List.append_nil, List.append_eq_nil_iff] at hflow
      refine ⟨⟨hwaiting, fun c' hc' => ?_⟩, (taken_singleton h hsub cmd).trans hflow.1⟩
      rw [hnext, hsub] at hc'
      obtain rfl := Option.some.inj hc'
      exact ⟨(Channel.topic_follow ..).trans ht, hflow.2⟩

theorem Idle.run {b : Broker} (h : b.Sound) {source : Endpoint} (hi : b.Idle source)
    {cmds : List Command} (hc : ∀ cmd ∈ cmds, cmd.spares source) :
    (b.run cmds).Idle source ∧ Reply.taken source.name (b.replies cmds) = [] := by
  induction cmds generalizing b with
  | nil => exact ⟨hi, rfl⟩
  | cons cmd cmds ih =>
    rw [List.forall_mem_cons] at hc
    obtain ⟨hnext, hfirst⟩ := hi.perform h hc.1
    obtain ⟨hidle, hrest⟩ := ih (h.perform cmd) hnext hc.2
    refine ⟨hidle, ?_⟩
    rw [replies_cons, ← List.singleton_append, Reply.taken_append, hfirst, hrest]
    rfl

/-- **A source to whose topic nothing is sent receives nothing.** -/
theorem idle_run (limit : Nat) (provider : Provider) {source : Endpoint} {cmds : List Command}
    (hc : ∀ cmd ∈ cmds, cmd.spares source) :
    let b := withLimit limit provider
    (b.run cmds).Idle source ∧ Reply.taken source.name (b.replies cmds) = [] :=
  Idle.run (sound_withLimit limit provider) ⟨rfl, fun _ hsub => (nomatch hsub)⟩ hc

end ForgeRelay.Broker
