import ForgeRelay.Proofs.Delivery.Moves

/-!
# Receivers

A topic is heard while some channel is fed by it.  Opening a channel makes its topic heard; most
operations change no backlog, and let no channel hear what it did not hear before.

* `Broker.HeardBy`           which channels hear a topic;
* `Broker.Within`            what most operations do: no topic gains a receiver, no backlog changes;
* `Timeline.heardBy_of_move` only opening a channel makes a topic heard;
* `Timeline.Sound.distinct_run`   no two channels ever have the same id.
-/

namespace ForgeRelay

namespace Broker

/-- whether a channel of that id hears the topic -/
def HeardBy (b : Broker) (topic : String) (id : Nat) : Prop :=
  ∃ c ∈ b.channels, c.id = id ∧ c.hears topic = true

theorem isHeard_iff {b : Broker} {topic : String} :
    b.isHeard topic = true ↔ ∃ id, b.HeardBy topic id := by
  unfold isHeard HeardBy
  rw [List.any_eq_true]
  constructor
  · rintro ⟨c, hc, hh⟩
    exact ⟨c.id, c, hc, rfl, hh⟩
  · rintro ⟨id, c, hc, -, hh⟩
    exact ⟨c, hc, hh⟩

/-- of channels with ids of their own each is found under its id -/
theorem channel?_of_mem {b : Broker} (hd : (b.channels.map Channel.id).Nodup) {c : Channel}
    (hc : c ∈ b.channels) : b.channel? c.id = some c := by
  unfold channel?
  generalize b.channels = channels at hd hc
  induction channels with
  | nil => cases hc
  | cons d cs ih =>
    rw [List.map_cons, List.nodup_cons] at hd
    rcases List.mem_cons.1 hc with rfl | hmem
    · exact List.find?_cons_of_pos (decide_eq_true rfl)
    · have hne : d.id ≠ c.id := fun e => hd.1 (e ▸ List.mem_map_of_mem hmem)
      rw [List.find?_cons_of_neg (by simpa using hne)]
      exact ih hd.2 hmem

/-! ## without new receivers -/

/-- the backlogs are the same, channels at most go, and none hears what it did not hear before -/
structure Within (b' b : Broker) : Prop where
  backlog : b'.backlog = b.backlog
  limit : b'.limit = b.limit
  ids : (b'.channels.map Channel.id).Sublist (b.channels.map Channel.id)
  heard : ∀ topic id, b'.HeardBy topic id → b.HeardBy topic id

namespace Within

theorem refl (b : Broker) : b.Within b := ⟨rfl, rfl, .refl _, fun _ _ h => h⟩

theorem trans {a b c : Broker} (hab : a.Within b) (hbc : b.Within c) : a.Within c :=
  ⟨hab.backlog.trans hbc.backlog, hab.limit.trans hbc.limit, hab.ids.trans hbc.ids,
    fun topic id h => hbc.heard topic id (hab.heard topic id h)⟩

theorem waiting_eq {b' b : Broker} (h : b'.Within b) (topic : String) :
    b'.waiting topic = b.waiting topic := by
  unfold waiting
  rw [h.backlog]

end Within

/-- channels may change as long as they hear no other topics -/
theorem within_map (b : Broker) {f : Channel → Channel} (hid : ∀ c, (f c).id = c.id)
    (hf : ∀ c topic, (f c).hears topic = true → c.hears topic = true) :
    ({ b with channels := b.channels.map f } : Broker).Within b := by
  refine ⟨rfl, rfl, ?_, ?_⟩
  · have hids : (b.channels.map f).map Channel.id = b.channels.map Channel.id := by
      rw [List.map_map]
      exact List.map_congr_left fun c _ => hid c
    exact hids ▸ .refl _
  · rintro topic id ⟨c', hc', rfl, hh⟩
    obtain ⟨c, hc, rfl⟩ := List.mem_map.1 hc'
    exact ⟨c, hc, (hid c).symm, hf c topic hh⟩

theorem within_changeChannel (b : Broker) (i : Nat) {f : Channel → Channel}
    (hid : ∀ c, (f c).id = c.id)
    (hf : ∀ c topic, (f c).hears topic = true → c.hears topic = true) :
    (b.changeChannel i f).Within b := by
  refine b.within_map (fun c => ?_) fun c topic h => ?_
  · split
    · exact hid c
    · rfl
  · split at h
    · exact hf c topic h
    · exact h

theorem not_hears_close (c : Channel) (topic : String) : ¬ c.close.hears topic = true := by
  simp [Channel.close, Channel.hears]

theorem within_closeChannel (b : Broker) (id : Nat) : (b.closeChannel id).Within b :=
  b.within_changeChannel id (fun _ => rfl) fun c topic h => absurd h (not_hears_close c topic)

theorem within_closeTopic (b : Broker) (topic : String) : (b.closeTopic topic).Within b := by
  refine b.within_map (Channel.id_closeOn topic) fun c other h => ?_
  split at h
  · exact absurd h (not_hears_close c other)
  · exact h

theorem within_dropChannel (b : Broker) (id : Nat) : (b.dropChannel id).Within b := by
  refine ⟨rfl, rfl, List.filter_sublist.map _, ?_⟩
  rintro topic i ⟨c, hc, hi, hh⟩
  exact ⟨c, (List.mem_filter.1 hc).1, hi, hh⟩

theorem within_dropUnheld (b : Broker) (id : Nat) : (b.dropUnheld id).Within b := by
  unfold dropUnheld
  split
  · exact .refl b
  · exact b.within_dropChannel id

theorem within_await (b : Broker) (ids : List Nat) : (b.await ids).Within b :=
  List.foldlRecOn (motive := fun c : Broker => c.Within b) _ _ ⟨rfl, rfl, .refl _, fun _ _ h => h⟩
    fun c hc id _ => (c.within_dropUnheld id).trans hc

theorem within_pull (b : Broker) (id : Nat) : (b.pull id).2.Within b := by
  unfold pull
  split
  · exact .refl b
  · split
    · exact b.within_changeChannel id (fun _ => rfl) fun _ _ h => h
    · exact .refl b

/-! ## sending and attaching -/

theorem heardBy_of_send {b : Broker} {topic other : String} {payload : Bytes} {id : Nat}
    (h : (b.send topic payload).HeardBy other id) : b.HeardBy other id := by
  unfold send at h
  split at h
  · refine (b.within_map (Channel.id_offer topic payload) fun c t hh => ?_).heard other id h
    unfold Channel.hears at hh ⊢
    rwa [Channel.fed_offer, Channel.topic_offer] at hh
  · exact h

theorem limit_send (b : Broker) (topic : String) (payload : Bytes) :
    (b.send topic payload).limit = b.limit := by
  unfold send
  split <;> rfl

theorem ids_send (b : Broker) (topic : String) (payload : Bytes) :
    (b.send topic payload).channels.map Channel.id = b.channels.map Channel.id := by
  unfold send
  split
  · show (b.channels.map _).map _ = _
    rw [List.map_map]
    exact List.map_congr_left fun c _ => Channel.id_offer topic payload c
  · rfl

theorem heardBy_of_attach {b : Broker} {topic other : String} (hne : other ≠ topic) {id : Nat}
    (h : (b.attach topic).HeardBy other id) : b.HeardBy other id := by
  obtain ⟨c, hc, hid, hh⟩ := h
  rcases List.mem_append.1 hc with hc | hc
  · exact ⟨c, hc, hid, hh⟩
  · rw [List.mem_singleton.1 hc] at hh
    simp [Channel.hears, hne.symm] at hh

/-- the channel that a source loses is another than the one it gets -/
theorem Sound.isHeard_subscribe {b : Broker} (h : b.Sound) (source : Endpoint) :
    (b.subscribe source).isHeard source.topic = true := by
  rw [subscribe_eq]
  split
  · exact b.isHeard_attach source.topic
  · rename_i id hid
    have hne : b.next ≠ id := (Nat.ne_of_lt (h.lt_next hid)).symm
    unfold Broker.dropUnheld
    split
    · exact b.isHeard_attach source.topic
    · refine isHeard_iff.2
        ⟨b.next, ⟨b.next, source.topic, b.waiting source.topic, true⟩, ?_, rfl, ?_⟩
      · refine List.mem_filter.2 ⟨List.mem_append_right _ (List.mem_singleton_self _), ?_⟩
        simpa using hne
      · simp [Channel.hears]

theorem within_subscribe (b : Broker) (source : Endpoint) :
    (b.subscribe source).Within (b.attach source.topic) := by
  have henlist : (b.enlist source).Within (b.attach source.topic) :=
    ⟨rfl, rfl, .refl _, fun _ _ h => h⟩
  rw [subscribe_eq]
  split
  · exact henlist
  · exact (within_dropUnheld _ _).trans henlist

end Broker

theorem Listener.Act.within {stop : Bool} {l l' : Listener} {b b' : Broker}
    (h : Listener.Act stop l b l' b') : b'.Within b := by
  cases h with
  | take payload _ _ => exact b.within_pull l.channel
  | wait _ _ _ => exact .refl b
  | leave _ _ => exact .refl b
  | close _ => exact b.within_closeChannel l.channel
  | finish _ _ => exact b.within_dropChannel l.channel
  | rest _ => exact .refl b

namespace Timeline

/-! ## one move -/

/-- a move that neither sends nor opens a channel -/
def Move.isQuiet : Move → Bool
  | .send _ _ => false
  | .subscribe _ => false
  | .listen _ _ _ => false
  | _ => true

theorem within_move (t : Timeline) {m : Move} (hm : m.isQuiet = true) :
    (t.move m).broker.Within t.broker := by
  cases m with
  | send _ _ => cases hm
  | subscribe _ => cases hm
  | listen _ _ _ => cases hm
  | closeTopic topic => exact t.broker.within_closeTopic topic
  | beginReceive source =>
    rcases move_beginReceive t source with ⟨w, ht, _⟩ | ⟨id, _, ht⟩
    · rw [ht]
      exact .refl _
    · rw [ht]
      exact t.broker.within_await _
  | look i =>
    rcases move_look t i with ht | ⟨w, _, _, ht⟩
    · rw [ht]
      exact .refl _
    · rw [ht]
      exact t.broker.within_pull w.channel
  | letGo => exact t.broker.within_await _
  | serve i =>
    cases hp : t.posts[i]? with
    | none =>
      rw [move_serve_none hp]
      exact .refl _
    | some p =>
      rw [move_serve hp]
      exact (Listener.act_step _ _ _).within
  | give _ => exact .refl _
  | pass _ => exact .refl _

theorem limit_move (t : Timeline) (m : Move) : (t.move m).broker.limit = t.broker.limit := by
  cases m with
  | send topic payload => exact t.broker.limit_send topic payload
  | subscribe source => exact (t.broker.within_subscribe source).limit
  | listen _ _ _ => rfl
  | _ => exact (within_move t rfl).limit

/-- no two channels ever have the same id -/
theorem Sound.distinct_move {t : Timeline} (h : t.Sound)
    (hd : (t.broker.channels.map Channel.id).Nodup) (m : Move) :
    ((t.move m).broker.channels.map Channel.id).Nodup := by
  have hattach : ∀ topic, ((t.broker.attach topic).channels.map Channel.id).Nodup := by
    intro topic
    show ((t.broker.channels ++ [_]).map _).Nodup
    rw [List.map_append, List.map_singleton]
    refine List.nodup_append.2 ⟨hd, List.nodup_singleton _, fun id hid id' hid' => ?_⟩
    obtain ⟨c, hc, rfl⟩ := List.mem_map.1 hid
    rw [List.mem_singleton.1 hid']
    exact Nat.ne_of_lt (h.broker.free c hc)
  cases m with
  | send topic payload => exact (t.broker.ids_send topic payload).symm ▸ hd
  | subscribe source => exact (hattach _).sublist (t.broker.within_subscribe source).ids
  | listen topic _ _ => exact hattach topic
  | _ => exact hd.sublist (within_move t rfl).ids

theorem Sound.distinct_run {t : Timeline} (h : t.Sound)
    (hd : (t.broker.channels.map Channel.id).Nodup) (ms : List Move) :
    ((t.run ms).broker.channels.map Channel.id).Nodup := by
  induction ms generalizing t with
  | nil => exact hd
  | cons m ms ih => exact ih (h.move m) (h.distinct_move hd m)

theorem Sound.isHeard_of_opens {t : Timeline} (h : t.Sound) {topic : String} {m : Move}
    (hm : m.opens topic = true) : (t.move m).broker.isHeard topic = true := by
  cases m with
  | subscribe source =>
    have ht : source.topic = topic := by simpa [Move.opens] using hm
    exact ht ▸ h.broker.isHeard_subscribe source
  | listen topic' signal handler =>
    have ht : topic' = topic := by simpa [Move.opens] using hm
    exact ht ▸ t.broker.isHeard_attach topic'
  | _ => cases hm

/-- only opening a channel makes a topic heard -/
theorem heardBy_of_move {t : Timeline} {topic : String} {m : Move} (hm : m.opens topic = false)
    {id : Nat} (h : (t.move m).broker.HeardBy topic id) : t.broker.HeardBy topic id := by
  cases m with
  | send _ _ => exact Broker.heardBy_of_send h
  | subscribe source =>
    have hne : topic ≠ source.topic := fun e => by simp [Move.opens, e] at hm
    exact Broker.heardBy_of_attach hne ((t.broker.within_subscribe source).heard topic id h)
  | listen topic' signal handler =>
    have hne : topic ≠ topic' := fun e => by simp [Move.opens, e] at hm
    exact Broker.heardBy_of_attach hne h
  | _ => exact (within_move t rfl).heard topic id h

theorem isHeard_of_move {t : Timeline} {topic : String} {m : Move} (hm : m.opens topic = false)
    (h : (t.move m).broker.isHeard topic = true) : t.broker.isHeard topic = true := by
  obtain ⟨id, hid⟩ := Broker.isHeard_iff.1 h
  exact Broker.isHeard_iff.2 ⟨id, heardBy_of_move hm hid⟩

theorem limit_run (t : Timeline) (ms : List Move) : (t.run ms).broker.limit = t.broker.limit := by
  induction ms generalizing t with
  | nil => rfl
  | cons m ms ih => exact (ih (t.move m)).trans (limit_move t m)

theorem heardBy_of_run {t : Timeline} {topic : String} {ms : List Move}
    (hopens : ∀ m ∈ ms, m.opens topic = false) {id : Nat}
    (h : (t.run ms).broker.HeardBy topic id) : t.broker.HeardBy topic id := by
  induction ms generalizing t with
  | nil => exact h
  | cons m ms ih =>
    obtain ⟨hm, hms⟩ := List.forall_mem_cons.1 hopens
    exact heardBy_of_move hm (ih hms h)

end Timeline

end ForgeRelay
