import ForgeRelay.Proofs.Delivery.Channels

/-!
# The channel of a source

`Broker.subscription?` finds the channel that a source takes its messages from.  For each operation
it is said what becomes of that channel: a subscription under the name puts a new channel in its
place, a receive takes its first message away, and what other sources do leaves it alone.
-/

namespace ForgeRelay

/-- what a channel has to offer -/
def Channel.front (c : Channel) : Broker.Pull :=
  match c.queue with
  | payload :: _ => .message payload
  | [] => if c.fed then .empty else .ended

namespace Broker

/-- the channel of a source -/
def subscription? (b : Broker) (name : String) : Option Channel :=
  (Keyed.lookup name b.subscriptions).bind b.channel?

/-! ## sending and closing -/

theorem subscription?_send (b : Broker) (topic : String) (payload : Bytes) (name : String) :
    (b.send topic payload).subscription? name =
      (b.subscription? name).map (·.offer topic payload) := by
  have hs : (b.send topic payload).subscriptions = b.subscriptions := by
    unfold send
    split <;> rfl
  unfold subscription?
  rw [hs]
  cases Keyed.lookup name b.subscriptions with
  | none => rfl
  | some id => exact channel?_send b topic payload id

theorem subscription?_closeTopic (b : Broker) (topic name : String) :
    (b.closeTopic topic).subscription? name = (b.subscription? name).map (·.closeOn topic) := by
  show (Keyed.lookup name b.subscriptions).bind _ = ((Keyed.lookup name b.subscriptions).bind _).map _
  cases Keyed.lookup name b.subscriptions with
  | none => rfl
  | some id => exact channel?_closeTopic b topic id

/-! ## taking a message -/

theorem pull_fst (b : Broker) (id : Nat) :
    (b.pull id).1 = ((b.channel? id).map Channel.front).getD .ended := by
  unfold pull
  cases b.channel? id with
  | none => rfl
  | some c =>
    obtain ⟨cid, topic, queue, fed⟩ := c
    cases queue <;> rfl

theorem channel?_pull (b : Broker) (i id : Nat) :
    (b.pull i).2.channel? id = if id = i then (b.channel? id).map Channel.advance
      else b.channel? id := by
  unfold pull
  cases hc : b.channel? i with
  | none =>
    show b.channel? id = _
    by_cases h : id = i
    · rw [h, hc, if_pos rfl]
      rfl
    · rw [if_neg h]
  | some c =>
    obtain ⟨cid, topic, queue, fed⟩ := c
    cases queue with
    | nil =>
      show b.channel? id = _
      by_cases h : id = i
      · rw [h, hc, if_pos rfl]
        rfl
      · rw [if_neg h]
    | cons payload rest =>
      have hchange := channel?_changeChannel b i (f := fun c => { c with queue := rest })
        (fun _ => rfl) id
      refine hchange.trans ?_
      by_cases h : id = i
      · rw [if_pos h, if_pos h, h, hc]
        rfl
      · rw [if_neg h, if_neg h]

theorem Sound.pull {b : Broker} (h : b.Sound) (i : Nat) : (b.pull i).2.Sound := by
  unfold Broker.pull
  split
  · exact h
  · split
    · exact h.changeChannel i (fun _ => rfl)
    · exact h

theorem subscriptions_pull (b : Broker) (i : Nat) :
    (b.pull i).2.subscriptions = b.subscriptions := by
  unfold pull
  split
  · rfl
  · split <;> rfl

theorem receive_snd (b : Broker) (name : String) :
    (b.receive name).2 = match Keyed.lookup name b.subscriptions with
      | none => b
      | some id => (b.pull id).2 := by
  unfold receive
  cases Keyed.lookup name b.subscriptions <;> rfl

theorem Sound.receive {b : Broker} (h : b.Sound) (name : String) : (b.receive name).2.Sound := by
  rw [receive_snd]
  split
  · exact h
  · exact h.pull _

/-- a receive gives what the channel of the source has to offer -/
theorem Sound.receive_fst {b : Broker} (h : b.Sound) (name : String) :
    (b.receive name).1 = match b.subscription? name with
      | none => .error (.notSubscribed name)
      | some c => c.front.received b.provider.timeout name := by
  unfold Broker.receive subscription?
  cases hl : Keyed.lookup name b.subscriptions with
  | none => rfl
  | some id =>
    obtain ⟨c, hc⟩ := h.held name id hl
    show (b.pull id).1.received b.provider.timeout name = _
    rw [pull_fst, hc, Option.map_some, Option.getD_some, Option.bind_some, hc]

/-- a receive for one source leaves the channels of the others alone -/
theorem Sound.subscription?_receive {b : Broker} (h : b.Sound) (source name : String) :
    (b.receive source).2.subscription? name =
      if source = name then (b.subscription? name).map Channel.advance
      else b.subscription? name := by
  rw [receive_snd]
  unfold subscription?
  cases hl : Keyed.lookup source b.subscriptions with
  | none =>
    by_cases hn : source = name
    · rw [if_pos hn, ← hn, hl]
      rfl
    · rw [if_neg hn]
  | some id =>
    show (Keyed.lookup name (b.pull id).2.subscriptions).bind _ = _
    rw [subscriptions_pull]
    by_cases hn : source = name
    · rw [if_pos hn, ← hn, hl, Option.bind_some, Option.bind_some, channel?_pull, if_pos rfl]
    · rw [if_neg hn]
      cases hl' : Keyed.lookup name b.subscriptions with
      | none => rfl
      | some other =>
        have hne : other ≠ id := fun e => hn (h.own source name id hl (e ▸ hl'))
        rw [Option.bind_some, Option.bind_some, channel?_pull, if_neg hne]

/-! ## subscribing -/

/-- the source has the new channel, and the one it had is still there -/
def enlist (b : Broker) (source : Endpoint) : Broker :=
  { b.attach source.topic with subscriptions := Keyed.put source.name b.next b.subscriptions }

theorem subscribe_eq (b : Broker) (source : Endpoint) :
    b.subscribe source = match Keyed.lookup source.name b.subscriptions with
      | none => b.enlist source
      | some id => (b.enlist source).dropUnheld id := rfl

theorem channel?_dropUnheld {b : Broker} {name : String} {id : Nat}
    (h : Keyed.lookup name b.subscriptions = some id) (i : Nat) :
    (b.dropUnheld i).channel? id = b.channel? id := by
  unfold dropUnheld
  split
  · rfl
  · rename_i hi
    have hmem : id ∈ b.subscriptions.map Prod.snd :=
      List.mem_map.2 ⟨(name, id), Keyed.mem_of_lookup h, rfl⟩
    have hne : id ≠ i := fun e => hi (.inr (e ▸ hmem))
    rw [channel?_dropChannel, if_neg hne]

theorem subscriptions_dropUnheld (b : Broker) (i : Nat) :
    (b.dropUnheld i).subscriptions = b.subscriptions := by
  unfold dropUnheld
  split <;> rfl

theorem subscription?_dropUnheld (b : Broker) (i : Nat) (name : String) :
    (b.dropUnheld i).subscription? name = b.subscription? name := by
  unfold subscription?
  rw [subscriptions_dropUnheld]
  cases hl : Keyed.lookup name b.subscriptions with
  | none => rfl
  | some id => exact channel?_dropUnheld hl i

theorem Sound.dropUnheld {b : Broker} (h : b.Sound) (i : Nat) : (b.dropUnheld i).Sound := by
  unfold Broker.dropUnheld
  split
  · exact h
  · rename_i hi
    refine h.dropChannel fun name hl => hi (.inr ?_)
    exact List.mem_map.2 ⟨(name, i), Keyed.mem_of_lookup hl, rfl⟩

theorem Sound.enlist {b : Broker} (h : b.Sound) (source : Endpoint) : (b.enlist source).Sound := by
  have ha := h.attach source.topic
  refine ⟨ha.free, fun name id hl => ?_, fun name other id hl hl' => ?_⟩
  · have hl : Keyed.lookup name (Keyed.put source.name b.next b.subscriptions) = some id := hl
    rw [Keyed.lookup_put] at hl
    by_cases hn : name = source.name
    · rw [if_pos hn] at hl
      cases hl
      refine ⟨⟨b.next, source.topic, b.waiting source.topic, true⟩, ?_⟩
      show (b.attach source.topic).channel? b.next = _
      rw [channel?_attach h.free, if_pos rfl]
    · rw [if_neg hn] at hl
      exact ha.held name id hl
  · have hl : Keyed.lookup name (Keyed.put source.name b.next b.subscriptions) = some id := hl
    have hl' : Keyed.lookup other (Keyed.put source.name b.next b.subscriptions) = some id := hl'
    rw [Keyed.lookup_put] at hl hl'
    -- the next id is of no source yet
    by_cases hn : name = source.name
    · by_cases ho : other = source.name
      · rw [hn, ho]
      · rw [if_pos hn] at hl
        rw [if_neg ho] at hl'
        cases hl
        exact absurd (h.lt_next hl') (Nat.lt_irrefl _)
    · by_cases ho : other = source.name
      · rw [if_neg hn] at hl
        rw [if_pos ho] at hl'
        cases hl'
        exact absurd (h.lt_next hl) (Nat.lt_irrefl _)
      · rw [if_neg hn] at hl
        rw [if_neg ho] at hl'
        exact h.own name other id hl hl'

theorem Sound.subscribe {b : Broker} (h : b.Sound) (source : Endpoint) :
    (b.subscribe source).Sound := by
  rw [subscribe_eq]
  split
  · exact h.enlist source
  · exact (h.enlist source).dropUnheld _

theorem Sound.subscription?_enlist {b : Broker} (h : b.Sound) (source : Endpoint) (name : String) :
    (b.enlist source).subscription? name =
      if source.name = name then some ⟨b.next, source.topic, b.waiting source.topic, true⟩
      else b.subscription? name := by
  show (Keyed.lookup name (Keyed.put source.name b.next b.subscriptions)).bind
    (b.attach source.topic).channel? = _
  rw [Keyed.lookup_put]
  by_cases hn : source.name = name
  · rw [if_pos hn.symm, if_pos hn, Option.bind_some, channel?_attach h.free, if_pos rfl]
  · rw [if_neg (Ne.symm hn), if_neg hn]
    unfold subscription?
    cases hl : Keyed.lookup name b.subscriptions with
    | none => rfl
    | some id =>
      have hne : id ≠ b.next := Nat.ne_of_lt (h.lt_next hl)
      rw [Option.bind_some, Option.bind_some, channel?_attach h.free, if_neg hne]

/-- a subscription begins with the backlog of its topic -/
theorem Sound.subscription?_subscribe {b : Broker} (h : b.Sound) (source : Endpoint)
    (name : String) :
    (b.subscribe source).subscription? name =
      if source.name = name then some ⟨b.next, source.topic, b.waiting source.topic, true⟩
      else b.subscription? name := by
  rw [← h.subscription?_enlist, subscribe_eq]
  split
  · rfl
  · exact subscription?_dropUnheld _ _ _

end Broker

end ForgeRelay
