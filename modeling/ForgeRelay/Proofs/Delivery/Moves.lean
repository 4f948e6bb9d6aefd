import ForgeRelay.Delivery.Timeline
import ForgeRelay.Proofs.Delivery.Listening
import ForgeRelay.Proofs.Keyed
import Mathlib.Data.List.Nodup

/-!
# Moves

Senders, receives and listeners run side by side.  A `Timeline.Move` is one thing that one of them
does apart from all others, and `Timeline.run` makes moves in any order: a listener may be between
two of its steps, a receive may hold a channel and not have looked at it yet, while others go on.

Channels have ids.  `received` are the channels that receives take from, now or later, `stations`
those of the listeners.

* `Sound`                ids in use are below the next one, and every listener has a channel of its
                         own;
* `Sound.subscribe`, `Sound.listen`, `Sound.serve`, ...   each move keeps a timeline sound;
* `Sound.run`            and so does every run;
* `Sound.channel?_move`  what a move of others makes of the channel of a listener.
-/

namespace ForgeRelay

namespace Broker

theorem holders_send (b : Broker) (topic : String) (payload : Bytes) :
    (b.send topic payload).holders = b.holders := by
  unfold send
  split <;> rfl

theorem holders_dropUnheld (b : Broker) (id : Nat) : (b.dropUnheld id).holders = b.holders := by
  unfold dropUnheld
  split <;> rfl

theorem channel?_dropUnheld_of_ne (b : Broker) {id i : Nat} (h : id ≠ i) :
    (b.dropUnheld i).channel? id = b.channel? id := by
  unfold dropUnheld
  split
  · rfl
  · rw [channel?_dropChannel, if_neg h]

/-! ## changing what is awaited -/

theorem holders_await (b : Broker) (ids : List Nat) :
    (b.await ids).holders = (b.next, b.subscriptions, ids) :=
  List.foldlRecOn (motive := fun c => c.holders = (b.next, b.subscriptions, ids)) _ _ rfl
    fun c hc id _ => (holders_dropUnheld c id).trans hc

theorem Sound.await {b : Broker} (h : b.Sound) (ids : List Nat) : (b.await ids).Sound :=
  List.foldlRecOn (motive := Broker.Sound) _ _ ⟨h.free, h.held, h.own⟩
    fun _ hc id _ => hc.dropUnheld id

/-- only channels that were awaited are let go -/
theorem channel?_await {b : Broker} {id : Nat} (h : id ∉ b.awaited) (ids : List Nat) :
    (b.await ids).channel? id = b.channel? id := by
  refine List.foldlRecOn (motive := fun c : Broker => c.channel? id = b.channel? id) _ _ rfl
    fun c hc i hi => ?_
  have hne : id ≠ i := fun e => h (e ▸ hi)
  exact (c.channel?_dropUnheld_of_ne hne).trans hc

/-- a subscription leaves alone the channels that no source has -/
theorem Sound.channel?_subscribe {b : Broker} (h : b.Sound) (source : Endpoint) {id : Nat}
    (hlt : id < b.next) (hid : ∀ name, (name, id) ∉ b.subscriptions) :
    (b.subscribe source).channel? id = b.channel? id := by
  have henlist : (b.enlist source).channel? id = b.channel? id := by
    show (b.attach source.topic).channel? id = _
    rw [channel?_attach h.free, if_neg (Nat.ne_of_lt hlt)]
  rw [subscribe_eq]
  split
  · exact henlist
  · rename_i i hi
    have hne : id ≠ i := fun e => hid source.name (e ▸ Keyed.mem_of_lookup hi)
    exact (channel?_dropUnheld_of_ne _ hne).trans henlist

theorem holders_subscribe (b : Broker) (source : Endpoint) :
    (b.subscribe source).holders =
      (b.next + 1, Keyed.put source.name b.next b.subscriptions, b.awaited) := by
  rw [subscribe_eq]
  split
  · rfl
  · exact holders_dropUnheld _ _

end Broker

namespace Timeline

inductive Move where
  | send (topic : String) (payload : Bytes)
  | subscribe (source : Endpoint)
  | closeTopic (topic : String)
  /-- a receive takes hold of the channel of its source -/
  | beginReceive (source : String)
  /-- the receive of that number looks at its channel, if it is the first there -/
  | look (i : Nat)
  /-- receives that are over let go of their channels -/
  | letGo
  | listen (topic : String) (signal : Signal) (handler : Handler.Stateful)
  /-- the listener of that number takes a step -/
  | serve (i : Nat)
  | give (signal : Signal)
  /-- time passes -/
  | pass (nanos : Nat)

/-- the payloads that a move sends to a topic -/
def Move.sentTo (topic : String) : Move → List Bytes
  | .send t payload => if t = topic then [payload] else []
  | _ => []

/-- whether a move opens a channel on a topic -/
def Move.opens (topic : String) : Move → Bool
  | .subscribe source => source.topic = topic
  | .listen t _ _ => t = topic
  | _ => false

/-- what a move makes of a channel that is not its own -/
def Move.meet (c : Channel) : Move → Channel
  | .send topic payload => c.offer topic payload
  | .closeTopic topic => c.closeOn topic
  | _ => c

/-- whether a receive that is not over has the channel -/
def isAwaited (waits : List Wait) (channel : Nat) : Bool :=
  waits.any fun w => w.isUnfinished && w.channel = channel

def move (t : Timeline) : Move → Timeline
  | .send topic payload => { t with broker := t.broker.send topic payload }
  | .subscribe source => { t with broker := t.broker.subscribe source }
  | .closeTopic topic => { t with broker := t.broker.closeTopic topic }
  | .beginReceive source =>
    match Keyed.lookup source t.broker.subscriptions with
    | none =>
      { t with waits := t.waits ++ [⟨source, 0, none, some (.error (.notSubscribed source))⟩] }
    | some id =>
      { t with
        broker := t.broker.await (t.broker.awaited ++ [id])
        waits := t.waits ++ [⟨source, id, none, none⟩] }
  | .look i =>
    match t.waits[i]? with
    | none => t
    | some w =>
      if !w.isUnfinished || isAwaited (t.waits.take i) w.channel then t
      else
        let (w', b) := attempt t.now w t.broker
        { t with broker := b, waits := t.waits.set i w' }
  | .letGo => { t with broker := t.broker.await ((unfinished t.waits).map Wait.channel) }
  | .listen topic signal handler =>
    let (l, b) := Listener.start t.broker topic handler
    { t with broker := b, posts := t.posts ++ [⟨signal, l⟩] }
  | .serve i =>
    match t.posts[i]? with
    | none => t
    | some p =>
      let (l, b) := p.listener.step (isGiven t.given p.signal) t.broker
      { t with broker := b, posts := t.posts.set i ⟨p.signal, l⟩ }
  | .give signal => { t with given := signal :: t.given }
  | .pass nanos => { t with now := t.now + nanos }

def run (t : Timeline) (moves : List Move) : Timeline := moves.foldl move t

theorem run_nil (t : Timeline) : t.run [] = t := rfl
theorem run_cons (t : Timeline) (m : Move) (ms : List Move) :
    t.run (m :: ms) = (t.move m).run ms := rfl
theorem run_append (t : Timeline) (ms ns : List Move) : t.run (ms ++ ns) = (t.run ms).run ns :=
  List.foldl_append

/-- at every point of a run from which a move is made -/
def Throughout (t : Timeline) (ms : List Move) (P : Timeline → Prop) : Prop :=
  ∀ ns m ns', ms = ns ++ m :: ns' → P (t.run ns)

theorem throughout_nil (t : Timeline) (P : Timeline → Prop) : t.Throughout [] P :=
  fun ns m ns' h => by simp at h

theorem throughout_cons {t : Timeline} {m : Move} {ms : List Move} {P : Timeline → Prop} :
    t.Throughout (m :: ms) P ↔ P t ∧ (t.move m).Throughout ms P := by
  constructor
  · intro h
    exact ⟨h [] m ms rfl, fun ns n ns' he => h (m :: ns) n ns' (congrArg (m :: ·) he)⟩
  · rintro ⟨ht, h⟩ ns n ns' he
    cases ns with
    | nil => exact ht
    | cons m' ns =>
      obtain ⟨rfl, htail⟩ := List.cons.inj he
      exact h ns n ns' htail

/-- the payloads that moves send to a topic -/
def sentTo (topic : String) (moves : List Move) : List Bytes := moves.flatMap (·.sentTo topic)

theorem sentTo_nil (topic : String) : sentTo topic [] = [] := rfl
theorem sentTo_cons (topic : String) (m : Move) (ms : List Move) :
    sentTo topic (m :: ms) = m.sentTo topic ++ sentTo topic ms := rfl
theorem sentTo_append (topic : String) (ms ns : List Move) :
    sentTo topic (ms ++ ns) = sentTo topic ms ++ sentTo topic ns := List.flatMap_append

/-! ## receives and listeners in a move -/

theorem attempt_snd (now : Nat) (w : Wait) (b : Broker) :
    (attempt now w b).2 = (b.pull w.channel).2 := by
  unfold attempt
  split
  · rename_i h
    rw [h]
    dsimp only
    split <;> rfl
  · rename_i h
    rw [h]

theorem channel_attempt (now : Nat) (w : Wait) (b : Broker) :
    (attempt now w b).1.channel = w.channel := by
  unfold attempt
  split
  · dsimp only
    split <;> rfl
  · rfl

/-- a receive that looks takes from its channel what is there -/
theorem move_look (t : Timeline) (i : Nat) :
    t.move (.look i) = t ∨ ∃ w, t.waits[i]? = some w ∧ w.isUnfinished = true ∧
      t.move (.look i) = { t with
        broker := (t.broker.pull w.channel).2
        waits := t.waits.set i (attempt t.now w t.broker).1 } := by
  unfold move
  dsimp only
  split
  · exact .inl rfl
  · rename_i w hw
    split
    · exact .inl rfl
    · rename_i hlook
      refine .inr ⟨w, hw, ?_, ?_⟩
      · simp only [Bool.or_eq_true, not_or, Bool.not_eq_true'] at hlook
        simpa using hlook.1
      · rw [← attempt_snd t.now]

theorem move_serve {t : Timeline} {i : Nat} {p : Post} (h : t.posts[i]? = some p) :
    t.move (.serve i) = { t with
      broker := (p.listener.step (isGiven t.given p.signal) t.broker).2
      posts := t.posts.set i
        ⟨p.signal, (p.listener.step (isGiven t.given p.signal) t.broker).1⟩ } := by
  unfold move
  simp only [h]

theorem move_serve_none {t : Timeline} {i : Nat} (h : t.posts[i]? = none) :
    t.move (.serve i) = t := by
  unfold move
  simp only [h]

/-- steps of one listener in a row -/
theorem run_serve {t : Timeline} {i : Nat} {p : Post} (hp : t.posts[i]? = some p) (n : Nat) :
    t.run (List.replicate n (.serve i)) = { t with
      broker := (p.listener.steps (isGiven t.given p.signal) n t.broker).2
      posts := t.posts.set i
        ⟨p.signal, (p.listener.steps (isGiven t.given p.signal) n t.broker).1⟩ } := by
  induction n generalizing t p with
  | zero =>
    obtain ⟨hi, rfl⟩ := List.getElem?_eq_some_iff.1 hp
    show t = { t with posts := t.posts.set i t.posts[i] }
    rw [List.set_getElem_self]
  | succ n ih =>
    have hi := (List.getElem?_eq_some_iff.1 hp).1
    rw [List.replicate_succ, run_cons, move_serve hp, ih (List.getElem?_set_self hi), List.set_set]
    rfl

theorem move_beginReceive (t : Timeline) (source : String) :
    (∃ w, t.move (.beginReceive source) = { t with waits := t.waits ++ [w] } ∧
      w.isUnfinished = false) ∨
    ∃ id, Keyed.lookup source t.broker.subscriptions = some id ∧
      t.move (.beginReceive source) = { t with
        broker := t.broker.await (t.broker.awaited ++ [id])
        waits := t.waits ++ [⟨source, id, none, none⟩] } := by
  unfold move
  dsimp only
  split
  · exact .inl ⟨_, rfl, rfl⟩
  · rename_i id hid
    exact .inr ⟨id, hid, rfl⟩

/-! ## ids in use -/

/-- the channels that receives take from, now or later -/
def received (t : Timeline) : List Nat :=
  t.broker.subscriptions.map Prod.snd ++ t.broker.awaited ++ (unfinished t.waits).map Wait.channel

/-- the channels of the listeners -/
def stations (t : Timeline) : List Nat := t.posts.map (·.listener.channel)

theorem mem_received {t : Timeline} {id : Nat} :
    id ∈ t.received ↔ (∃ name, (name, id) ∈ t.broker.subscriptions) ∨ id ∈ t.broker.awaited ∨
      ∃ w ∈ t.waits, w.isUnfinished = true ∧ w.channel = id := by
  unfold received unfinished
  simp only [List.mem_append, List.mem_map, List.mem_filter, Prod.exists, exists_eq_right, or_assoc,
    and_assoc]

/-- ids in use are below the next one, and every listener has a channel of its own -/
structure Sound (t : Timeline) : Prop where
  broker : t.broker.Sound
  received : ∀ id ∈ t.received, id < t.broker.next
  stations : ∀ id ∈ t.stations, id < t.broker.next ∧ id ∉ t.received
  apart : t.stations.Nodup

/-- a timeline stays sound while listeners stay at their posts and receives take only from channels
that they took from before, or from a new one -/
theorem Sound.of_holders {t t' : Timeline} (h : t.Sound) (hb : t'.broker.Sound)
    (hn : t.broker.next ≤ t'.broker.next) (hs : t'.stations = t.stations)
    (hr : ∀ id ∈ t'.received, id ∈ t.received ∨ (id = t.broker.next ∧ id < t'.broker.next)) :
    t'.Sound := by
  refine ⟨hb, fun id hid => ?_, fun id hid => ?_, hs ▸ h.apart⟩
  · rcases hr id hid with hid | hid
    · exact Nat.lt_of_lt_of_le (h.received id hid) hn
    · exact hid.2
  · rw [hs] at hid
    obtain ⟨hlt, hnot⟩ := h.stations id hid
    refine ⟨Nat.lt_of_lt_of_le hlt hn, fun hid' => ?_⟩
    rcases hr id hid' with hid' | hid'
    · exact hnot hid'
    · exact Nat.ne_of_lt hlt hid'.1

theorem sound_start (limit : Nat) (provider : Provider) :
    (start (.withLimit limit provider)).Sound := by
  refine ⟨Broker.sound_withLimit limit provider, fun id h => ?_, fun id h => ?_, List.nodup_nil⟩
  · cases h
  · cases h

/-- receives change, and the broker with them, while no source gets another channel -/
theorem Sound.of_waits {t : Timeline} (h : t.Sound) {b : Broker} (hb : b.Sound) {ids : List Nat}
    (hh : b.holders = (t.broker.next, t.broker.subscriptions, ids)) {ws : List Wait}
    (hids : ∀ id ∈ ids, id ∈ t.received)
    (hws : ∀ w ∈ ws, w.isUnfinished = true → w.channel ∈ t.received) :
    ({ t with broker := b, waits := ws } : Timeline).Sound := by
  have hn : b.next = t.broker.next := congrArg Prod.fst hh
  have hs : b.subscriptions = t.broker.subscriptions := congrArg (·.2.1) hh
  have ha : b.awaited = ids := congrArg (·.2.2) hh
  refine h.of_holders hb (Nat.le_of_eq hn.symm) rfl fun id hid => .inl ?_
  rcases mem_received.1 hid with ⟨name, hid⟩ | hid | ⟨w, hw, hu, rfl⟩
  · have hid : (name, id) ∈ b.subscriptions := hid
    exact mem_received.2 (.inl ⟨name, hs ▸ hid⟩)
  · have hid : id ∈ b.awaited := hid
    exact hids id (ha ▸ hid)
  · exact hws w hw hu

theorem mem_received_of_awaited {t : Timeline} {id : Nat} (hid : id ∈ t.broker.awaited) :
    id ∈ t.received := mem_received.2 (.inr (.inl hid))

theorem mem_received_of_waits {t : Timeline} {w : Wait} (hw : w ∈ t.waits)
    (hu : w.isUnfinished = true) : w.channel ∈ t.received := mem_received.2 (.inr (.inr ⟨w, hw, hu, rfl⟩))

/-- the broker changes, and there not who holds what -/
theorem Sound.of_broker {t : Timeline} (h : t.Sound) {b : Broker} (hb : b.Sound)
    (hh : b.holders = t.broker.holders) : ({ t with broker := b } : Timeline).Sound :=
  h.of_waits hb hh (fun _ => mem_received_of_awaited) fun _ => mem_received_of_waits

/-- a step of a listener leaves all listeners at their channels -/
theorem stations_serve (t : Timeline) (i : Nat) : (t.move (.serve i)).stations = t.stations := by
  cases hp : t.posts[i]? with
  | none => rw [move_serve_none hp]
  | some p =>
    rw [move_serve hp]
    have hchannel := (Listener.act_step (isGiven t.given p.signal) p.listener t.broker).channel_eq
    obtain ⟨hi, rfl⟩ := List.getElem?_eq_some_iff.1 hp
    show (t.posts.set i _).map _ = t.posts.map _
    rw [List.map_set, hchannel, ← List.getElem_map (fun q : Post => q.listener.channel)]
    · exact List.set_getElem_self _
    · rwa [List.length_map]

theorem mem_stations {t : Timeline} {i : Nat} {p : Post} (h : t.posts[i]? = some p) :
    p.listener.channel ∈ t.stations :=
  List.mem_map.2 ⟨p, List.mem_of_getElem? h, rfl⟩

section
variable {t : Timeline} (h : t.Sound)
include h

/-- the source takes from a new channel, all others from the ones they had -/
theorem Sound.subscribe (source : Endpoint) : (t.move (.subscribe source)).Sound := by
  have hh := Broker.holders_subscribe t.broker source
  have hn : (t.broker.subscribe source).next = t.broker.next + 1 := congrArg Prod.fst hh
  have hs : (t.broker.subscribe source).subscriptions = _ := congrArg (·.2.1) hh
  have ha : (t.broker.subscribe source).awaited = _ := congrArg (·.2.2) hh
  refine h.of_holders (h.broker.subscribe source) ?_ rfl fun id hid => ?_
  · show _ ≤ (t.broker.subscribe source).next
    omega
  · rcases mem_received.1 hid with ⟨name, hid⟩ | hid | hid
    · have hid : (name, id) ∈ (t.broker.subscribe source).subscriptions := hid
      rw [hs] at hid
      rcases Keyed.mem_put hid with hid | hid
      · have hnext : id = t.broker.next := congrArg Prod.snd hid
        refine .inr ⟨hnext, ?_⟩
        show id < (t.broker.subscribe source).next
        omega
      · exact .inl (mem_received.2 (.inl ⟨name, hid⟩))
    · have hid : id ∈ (t.broker.subscribe source).awaited := hid
      rw [ha] at hid
      exact .inl (mem_received_of_awaited hid)
    · exact .inl (mem_received.2 (.inr (.inr hid)))

/-- a receive holds the channel that its source takes from -/
theorem Sound.beginReceive (source : String) : (t.move (.beginReceive source)).Sound := by
  rcases move_beginReceive t source with ⟨w, ht, hw⟩ | ⟨id, hid, ht⟩
  · rw [ht]
    refine h.of_waits h.broker rfl (fun _ => mem_received_of_awaited) fun w' hw' hu => ?_
    rcases List.mem_append.1 hw' with hw' | hw'
    · exact mem_received_of_waits hw' hu
    · rw [List.mem_singleton.1 hw', hw] at hu
      cases hu
  · rw [ht]
    have hmem : id ∈ t.received := mem_received.2 (.inl ⟨source, Keyed.mem_of_lookup hid⟩)
    refine h.of_waits (h.broker.await _) (Broker.holders_await _ _) (fun i hi => ?_)
      fun w hw hu => ?_
    · rcases List.mem_append.1 hi with hi | hi
      · exact mem_received_of_awaited hi
      · rwa [List.mem_singleton.1 hi]
    · rcases List.mem_append.1 hw with hw | hw
      · exact mem_received_of_waits hw hu
      · rwa [List.mem_singleton.1 hw]

theorem Sound.look (i : Nat) : (t.move (.look i)).Sound := by
  rcases move_look t i with ht | ⟨w, hw, hu, ht⟩
  · rwa [ht]
  · rw [ht]
    refine h.of_waits (h.broker.pull w.channel) (Broker.holders_pull t.broker w.channel)
      (fun _ => mem_received_of_awaited) fun w' hw' hu' => ?_
    rcases List.mem_or_eq_of_mem_set hw' with hw' | rfl
    · exact mem_received_of_waits hw' hu'
    · rw [channel_attempt]
      exact mem_received_of_waits (List.mem_of_getElem? hw) hu

/-- what is awaited afterwards is what unfinished receives hold -/
theorem Sound.letGo : (t.move .letGo).Sound := by
  refine h.of_waits (h.broker.await _) (Broker.holders_await _ _) (fun i hi => ?_)
    fun _ => mem_received_of_waits
  obtain ⟨w, hw, rfl⟩ := List.mem_map.1 hi
  obtain ⟨hw, hu⟩ := List.mem_filter.1 hw
  exact mem_received_of_waits hw hu

/-- a new listener has a channel that no one else has -/
theorem Sound.listen (topic : String) (signal : Signal) (handler : Handler.Stateful) :
    (t.move (.listen topic signal handler)).Sound := by
  have hnext : t.broker.next ∉ t.received := fun hm => Nat.lt_irrefl _ (h.received _ hm)
  have hstations : (t.move (.listen topic signal handler)).stations =
      t.stations ++ [t.broker.next] := List.map_append
  refine ⟨h.broker.attach topic, fun id hid => Nat.lt_succ_of_lt (h.received id hid),
    fun id hid => ?_, ?_⟩
  · rw [hstations] at hid
    rcases List.mem_append.1 hid with hid | hid
    · exact (h.stations id hid).imp_left Nat.lt_succ_of_lt
    · rw [List.mem_singleton.1 hid]
      exact ⟨Nat.lt_succ_self _, hnext⟩
  · rw [hstations]
    refine List.nodup_append.2 ⟨h.apart, List.nodup_singleton _, fun id hid id' hid' => ?_⟩
    rw [List.mem_singleton.1 hid']
    exact Nat.ne_of_lt (h.stations id hid).1

/-- a step of a listener leaves alone what sources and receives have -/
theorem Sound.serve (i : Nat) : (t.move (.serve i)).Sound := by
  cases hp : t.posts[i]? with
  | none => rwa [move_serve_none hp]
  | some p =>
    have hact := Listener.act_step (isGiven t.given p.signal) p.listener t.broker
    have hown := (h.stations _ (mem_stations hp)).2
    have hb := hact.sound h.broker fun name hl =>
      hown (mem_received.2 (.inl ⟨name, Keyed.mem_of_lookup hl⟩))
    have hs := stations_serve t i
    rw [move_serve hp] at hs ⊢
    have hbroker := h.of_broker hb hact.holders_eq
    exact ⟨hb, hbroker.received, fun id hid => hbroker.stations id (hs ▸ hid), hs ▸ h.apart⟩

theorem Sound.move (m : Move) : (t.move m).Sound := by
  cases m with
  | send topic payload =>
    exact h.of_broker (h.broker.send topic payload) (Broker.holders_send t.broker topic payload)
  | subscribe source => exact h.subscribe source
  | closeTopic topic => exact h.of_broker (h.broker.closeTopic topic) rfl
  | beginReceive source => exact h.beginReceive source
  | look i => exact h.look i
  | letGo => exact h.letGo
  | listen topic signal handler => exact h.listen topic signal handler
  | serve i => exact h.serve i
  | give signal => exact ⟨h.broker, h.received, h.stations, h.apart⟩
  | pass nanos => exact ⟨h.broker, h.received, h.stations, h.apart⟩

theorem Sound.run (ms : List Move) : (t.run ms).Sound := by
  induction ms generalizing t with
  | nil => exact h
  | cons m ms ih => exact ih (h.move m)

end

/-! ## the channel of a listener -/

/-- whether a move is a step of the listener of that number -/
def Move.isStepOf (i : Nat) : Move → Bool
  | .serve j => j = i
  | _ => false

theorem topic_meet (m : Move) (c : Channel) : (m.meet c).topic = c.topic := by
  cases m with
  | send topic payload => exact Channel.topic_offer ..
  | closeTopic topic => exact Channel.topic_closeOn ..
  | _ => rfl

theorem fed_of_fed_meet {m : Move} {c : Channel} (h : (m.meet c).fed = true) : c.fed = true := by
  cases m with
  | send topic payload => exact (Channel.fed_offer topic payload c).symm.trans h
  | closeTopic topic =>
    have h : (c.closeOn topic).fed = true := h
    unfold Channel.closeOn at h
    split at h
    · cases h
    · exact h
  | _ => exact h

/-- a channel takes in what is sent to its topic while it is fed -/
theorem queue_meet (m : Move) (c : Channel) :
    (m.meet c).queue = c.queue ++ if c.fed then m.sentTo c.topic else [] := by
  cases m with
  | send topic payload =>
    show (c.offer topic payload).queue = _
    unfold Channel.offer
    by_cases ht : topic = c.topic
    · cases hfed : c.fed <;> simp [Channel.hears, Move.sentTo, hfed, ht]
    · simp [Channel.hears, Move.sentTo, ht, Ne.symm ht]
  | closeTopic topic =>
    show (c.closeOn topic).queue = _
    rw [Channel.queue_closeOn]
    simp [Move.sentTo]
  | _ => simp [Move.meet, Move.sentTo]

theorem Sound.channel_ne {t : Timeline} (h : t.Sound) {i j : Nat} {p q : Post}
    (hp : t.posts[i]? = some p) (hq : t.posts[j]? = some q) (hij : i ≠ j) :
    p.listener.channel ≠ q.listener.channel := by
  intro he
  obtain ⟨hi, rfl⟩ := List.getElem?_eq_some_iff.1 hp
  obtain ⟨hj, rfl⟩ := List.getElem?_eq_some_iff.1 hq
  have hlen : t.stations.length = t.posts.length := List.length_map _
  have hget : t.stations.get ⟨i, hlen ▸ hi⟩ = t.stations.get ⟨j, hlen ▸ hj⟩ := by
    simpa [Timeline.stations] using he
  exact hij (congrArg Fin.val (h.apart.injective_get hget))

/-- a move of others makes of the channel of a listener what it makes of every channel -/
theorem Sound.channel?_move {t : Timeline} (h : t.Sound) {i : Nat} {p : Post}
    (hp : t.posts[i]? = some p) {m : Move} (hm : m.isStepOf i = false) :
    (t.move m).broker.channel? p.listener.channel =
      (t.broker.channel? p.listener.channel).map m.meet := by
  obtain ⟨hlt, hnot⟩ := h.stations _ (mem_stations hp)
  have hid : (t.broker.channel? p.listener.channel).map id = t.broker.channel? p.listener.channel :=
    Option.map_id_apply
  cases m with
  | send topic payload => exact Broker.channel?_send ..
  | subscribe source =>
    refine (h.broker.channel?_subscribe source hlt fun name hmem => ?_).trans hid.symm
    exact hnot (mem_received.2 (.inl ⟨name, hmem⟩))
  | closeTopic topic => exact Broker.channel?_closeTopic ..
  | beginReceive source =>
    refine Eq.trans ?_ hid.symm
    rcases move_beginReceive t source with ⟨w, ht, _⟩ | ⟨j, _, ht⟩
    · rw [ht]
    · rw [ht]
      exact Broker.channel?_await (fun hmem => hnot (mem_received_of_awaited hmem)) _
  | look j =>
    refine Eq.trans ?_ hid.symm
    rcases move_look t j with ht | ⟨w, hw, hu, ht⟩
    · rw [ht]
    · rw [ht]
      have hne : p.listener.channel ≠ w.channel := fun e =>
        hnot (e ▸ mem_received_of_waits (List.mem_of_getElem? hw) hu)
      exact (Broker.channel?_pull ..).trans (if_neg hne)
  | letGo =>
    exact (Broker.channel?_await (fun hmem => hnot (mem_received_of_awaited hmem)) _).trans hid.symm
  | listen topic signal handler =>
    refine ((Broker.channel?_attach h.broker.free topic _).trans ?_).trans hid.symm
    exact if_neg (Nat.ne_of_lt hlt)
  | serve j =>
    refine Eq.trans ?_ hid.symm
    cases hq : t.posts[j]? with
    | none => rw [move_serve_none hq]
    | some q =>
      rw [move_serve hq]
      refine (Listener.act_step (isGiven t.given q.signal) q.listener t.broker).channel?_eq ?_
      have hji : j ≠ i := by simpa [Move.isStepOf] using hm
      exact h.channel_ne hp hq hji.symm
  | give signal => exact hid.symm
  | pass nanos => exact hid.symm

/-- a listener stays at its post while others move -/
theorem posts_move {t : Timeline} {i : Nat} {p : Post} (hp : t.posts[i]? = some p) {m : Move}
    (hm : m.isStepOf i = false) : (t.move m).posts[i]? = some p := by
  cases m with
  | send _ _ => exact hp
  | subscribe _ => exact hp
  | closeTopic _ => exact hp
  | beginReceive source =>
    rcases move_beginReceive t source with ⟨w, ht, _⟩ | ⟨id, _, ht⟩
    · rw [ht]
      exact hp
    · rw [ht]
      exact hp
  | look j =>
    rcases move_look t j with ht | ⟨w, _, _, ht⟩
    · rwa [ht]
    · rw [ht]
      exact hp
  | letGo => exact hp
  | listen topic signal handler =>
    have hi : i < t.posts.length := (List.getElem?_eq_some_iff.1 hp).1
    exact (List.getElem?_append_left hi).trans hp
  | serve j =>
    have hji : j ≠ i := by simpa [Move.isStepOf] using hm
    cases hq : t.posts[j]? with
    | none => rwa [move_serve_none hq]
    | some q =>
      rw [move_serve hq]
      exact (List.getElem?_set_ne hji).trans hp
  | give _ => exact hp
  | pass _ => exact hp

end Timeline

end ForgeRelay
