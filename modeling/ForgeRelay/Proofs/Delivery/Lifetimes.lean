import ForgeRelay.Proofs.Delivery.Receivers

/-!
# Lifetimes of receivers

The receiver of a channel begins when a move opens the channel.  It lasts until its topic is closed,
until neither a source nor a receive holds the channel any longer, or until the listener whose
channel it is closes or drops it.

* `Timeline.Ends`                   the moves that end a receiver;
* `Timeline.Sound.heardBy_move_iff` who hears a topic after a move;
* `Timeline.Live`                   a receiver that a run opened and did not end;
* `Timeline.isHeard_run_start`      a topic is heard exactly while it has a live receiver.
-/

namespace ForgeRelay

namespace Broker

/-! ## hearing, by id -/

/-- whether the channel that is found under the id hears the topic -/
def isHeardBy (b : Broker) (topic : String) (id : Nat) : Bool :=
  (b.channel? id).any (·.hears topic)

/-- of channels with ids of their own, who hears a topic is told by their ids -/
theorem heardBy_iff {b : Broker} (hd : (b.channels.map Channel.id).Nodup) {topic : String}
    {id : Nat} : b.HeardBy topic id ↔ b.isHeardBy topic id = true := by
  unfold isHeardBy
  rw [Option.any_eq_true]
  constructor
  · rintro ⟨c, hc, rfl, hh⟩
    exact ⟨c, channel?_of_mem hd hc, hh⟩
  · rintro ⟨c, hc, hh⟩
    obtain ⟨hmem, hid⟩ := mem_of_channel? hc
    exact ⟨c, hmem, hid, hh⟩

theorem isHeardBy_congr {b b' : Broker} {id : Nat} (h : b'.channel? id = b.channel? id)
    (topic : String) : b'.isHeardBy topic id = b.isHeardBy topic id := by
  unfold isHeardBy
  rw [h]

theorem isHeardBy_send (b : Broker) (topic other : String) (payload : Bytes) (id : Nat) :
    (b.send topic payload).isHeardBy other id = b.isHeardBy other id := by
  unfold isHeardBy
  rw [channel?_send, Option.any_map]
  congr 1
  funext c
  simp [Channel.hears]

theorem isHeardBy_pull (b : Broker) (i : Nat) (topic : String) (id : Nat) :
    (b.pull i).2.isHeardBy topic id = b.isHeardBy topic id := by
  unfold isHeardBy
  rw [channel?_pull]
  split
  · rw [Option.any_map]
    rfl
  · rfl

theorem isHeardBy_closeTopic (b : Broker) (topic other : String) (id : Nat) :
    (b.closeTopic topic).isHeardBy other id = (b.isHeardBy other id && other ≠ topic) := by
  unfold isHeardBy
  rw [channel?_closeTopic, Option.any_map]
  cases b.channel? id with
  | none => rfl
  | some c =>
    show (c.closeOn topic).hears other = (c.hears other && decide (other ≠ topic))
    unfold Channel.closeOn Channel.hears
    by_cases ho : other = topic
    · by_cases hc : c.topic = topic <;> simp [hc, ho, Channel.close]
    · by_cases hc : c.topic = topic
      · simp [hc, Ne.symm ho, Channel.close]
      · simp [hc, ho]

/-! ## letting go -/

/-- whether a source has the channel, or a receive waits on it -/
def isHeld (b : Broker) (id : Nat) : Bool :=
  decide (id ∈ b.awaited ∨ id ∈ b.subscriptions.map Prod.snd)

theorem isHeld_congr {b b' : Broker} (h : b'.holders = b.holders) (id : Nat) :
    b'.isHeld id = b.isHeld id := by
  have hs : b'.subscriptions = b.subscriptions := congrArg (·.2.1) h
  have ha : b'.awaited = b.awaited := congrArg (·.2.2) h
  unfold isHeld
  rw [hs, ha]

theorem channel?_dropUnheld_eq (b : Broker) (i id : Nat) :
    (b.dropUnheld i).channel? id =
      if id = i ∧ b.isHeld id = false then none else b.channel? id := by
  unfold dropUnheld
  split
  · rename_i hi
    rw [if_neg]
    rintro ⟨rfl, hnot⟩
    exact of_decide_eq_false hnot hi
  · rename_i hi
    rw [channel?_dropChannel]
    by_cases hid : id = i
    · rw [if_pos hid, if_pos ⟨hid, decide_eq_false (hid ▸ hi)⟩]
    · rw [if_neg hid, if_neg fun h => hid h.1]

theorem channel?_foldl_dropUnheld (ids : List Nat) (b : Broker) (id : Nat) :
    (ids.foldl dropUnheld b).channel? id =
      if id ∈ ids ∧ b.isHeld id = false then none else b.channel? id := by
  induction ids generalizing b with
  | nil => simp
  | cons i ids ih =>
    rw [List.foldl_cons, ih, isHeld_congr (holders_dropUnheld b i) id, channel?_dropUnheld_eq]
    cases b.isHeld id with
    | true => simp
    | false =>
      by_cases hmem : id ∈ ids
      · simp [hmem]
      · by_cases hi : id = i <;> simp [hmem, hi]

theorem isHeld_await (b : Broker) (ids : List Nat) (id : Nat) :
    (b.await ids).isHeld id = decide (id ∈ ids ∨ id ∈ b.subscriptions.map Prod.snd) :=
  isHeld_congr (b := { b with awaited := ids }) (holders_await b ids) id

/-- what nobody holds any longer goes -/
theorem channel?_await_eq (b : Broker) (ids : List Nat) (id : Nat) :
    (b.await ids).channel? id =
      if b.isHeld id = true ∧ (b.await ids).isHeld id = false then none else b.channel? id := by
  refine (channel?_foldl_dropUnheld b.awaited { b with awaited := ids } id).trans ?_
  rw [isHeld_await]
  refine if_congr (and_congr_left fun hgone => ?_) rfl rfl
  -- the sources have what they had
  have hsource : id ∉ b.subscriptions.map Prod.snd := fun hs =>
    of_decide_eq_false hgone (.inr hs)
  exact ⟨fun ha => decide_eq_true (.inl ha), fun hb => (of_decide_eq_true hb).resolve_right hsource⟩

/-- a subscription opens the next channel, and what nobody holds any longer goes -/
theorem Sound.channel?_subscribe_eq {b : Broker} (h : b.Sound) (source : Endpoint) (id : Nat) :
    (b.subscribe source).channel? id =
      if id = b.next then some ⟨b.next, source.topic, b.waiting source.topic, true⟩
      else if b.isHeld id = true ∧ (b.subscribe source).isHeld id = false then none
      else b.channel? id := by
  have hattach : (b.enlist source).channel? id = _ := channel?_attach h.free source.topic id
  have hheld : (b.subscribe source).isHeld id = (b.enlist source).isHeld id :=
    isHeld_congr (holders_subscribe b source) id
  -- only the source can let go of a channel, and only of the one that it had
  have hkept : b.isHeld id = true → (b.enlist source).isHeld id = false →
      Keyed.lookup source.name b.subscriptions = some id := by
    intro hb he
    rcases of_decide_eq_true hb with ha | hs
    · exact absurd (.inl ha) (of_decide_eq_false he)
    · obtain ⟨e, hmem, rfl⟩ := List.mem_map.1 hs
      rcases Keyed.mem_put_of_mem b.next hmem with hmem | ⟨-, hl⟩
      · exact absurd (.inr (List.mem_map_of_mem hmem)) (of_decide_eq_false he)
      · exact hl
  rw [hheld, subscribe_eq]
  cases hl : Keyed.lookup source.name b.subscriptions with
  | none =>
    have hstay : ¬ (b.isHeld id = true ∧ (b.enlist source).isHeld id = false) := fun hgo => by
      have := hkept hgo.1 hgo.2
      rw [hl] at this
      cases this
    rw [if_neg hstay]
    exact hattach
  | some i =>
    have hi : i ≠ b.next := Nat.ne_of_lt (h.lt_next hl)
    have hgo : id = i ∧ (b.enlist source).isHeld id = false ↔
        b.isHeld id = true ∧ (b.enlist source).isHeld id = false := by
      refine and_congr_left fun he => ⟨?_, fun hb => ?_⟩
      · rintro rfl
        exact decide_eq_true (.inr (List.mem_map.2 ⟨_, Keyed.mem_of_lookup hl, rfl⟩))
      · have := hkept hb he
        rw [hl] at this
        exact (Option.some.inj this).symm
    refine (channel?_dropUnheld_eq _ i id).trans ?_
    rw [hattach]
    by_cases hnext : id = b.next
    · have hne : id ≠ i := fun e => hi (e.symm.trans hnext)
      rw [if_neg fun h => hne h.1, if_pos hnext, if_pos hnext]
    · rw [if_neg hnext, if_neg hnext, if_congr hgo rfl rfl]

end Broker

/-! ## leaving -/

/-- the next step of the listener closes its channel or drops it -/
def Listener.Quits (l : Listener) (b : Broker) : Prop :=
  l.stage = .leaving ∨ (l.stage = .draining ∧ b.queued l.channel = [])

theorem Listener.Act.isHeardBy_iff {stop : Bool} {l l' : Listener} {b b' : Broker}
    (h : Listener.Act stop l b l' b') (topic : String) :
    b'.isHeardBy topic l.channel = true ↔
      b.isHeardBy topic l.channel = true ∧ ¬ l.Quits b := by
  unfold Listener.Quits
  cases h with
  | take payload hs hp =>
    have hqueue : b.queued l.channel ≠ [] := by
      rw [Broker.queued_pull hp]
      exact List.cons_ne_nil _ _
    rw [Broker.isHeardBy_pull]
    rcases hs with hs | hs <;> simp [hs, hqueue]
  | wait hs _ _ => simp [hs]
  | leave hs _ => simp [hs]
  | close hs =>
    have hclosed : (b.closeChannel l.channel).isHeardBy topic l.channel = false := by
      unfold Broker.isHeardBy
      rw [Broker.channel?_closeChannel, if_pos rfl, Option.any_map]
      cases b.channel? l.channel <;> rfl
    simp [hs, hclosed]
  | finish hs hp =>
    have hdropped : (b.dropChannel l.channel).isHeardBy topic l.channel = false := by
      unfold Broker.isHeardBy
      rw [Broker.channel?_dropChannel, if_pos rfl]
      rfl
    simp [hs, hdropped, Broker.queued_eq_nil hp]
  | rest hs => simp [hs]

namespace Timeline

/-! ## what ends a receiver -/

/-- the move ends the receiver of that channel on the topic: it closes the topic, it lets go of the
channel, or it is the step of the listener that closes its channel or drops it -/
inductive Ends (t : Timeline) (topic : String) (id : Nat) : Move → Prop where
  | closeTopic : Ends t topic id (.closeTopic topic)
  | letGo {m : Move} (hb : t.broker.isHeld id = true)
      (ha : (t.move m).broker.isHeld id = false) : Ends t topic id m
  | quit {i : Nat} {p : Post} (hp : t.posts[i]? = some p) (hid : p.listener.channel = id)
      (hq : p.listener.Quits t.broker) : Ends t topic id (.serve i)

/-- the move opens the channel on the topic, or does not end its receiver -/
def HeardAfter (t : Timeline) (topic : String) (id : Nat) (m : Move) : Prop :=
  (m.opens topic = true ∧ id = t.broker.next) ∨
    (t.broker.isHeardBy topic id = true ∧ ¬ t.Ends topic id m)

/-- whether a move may end receivers of the topic in another way than by letting go of them -/
def Move.mayClose (topic : String) : Move → Bool
  | .closeTopic t => t = topic
  | .serve _ => true
  | _ => false

section
variable {t : Timeline} {topic : String} {id : Nat} {m : Move}

theorem ends_iff_of_not_close (hm : m.mayClose topic = false) :
    t.Ends topic id m ↔ t.broker.isHeld id = true ∧ (t.move m).broker.isHeld id = false := by
  constructor
  · intro h
    cases h with
    | closeTopic => exact absurd (decide_eq_true rfl) (Bool.eq_false_iff.1 hm)
    | letGo hb ha => exact ⟨hb, ha⟩
    | quit _ _ _ => exact absurd rfl (Bool.eq_false_iff.1 hm)
  · exact fun h => .letGo h.1 h.2

/-- while nobody lets go of a channel, only the end of its topic or of its listener ends it -/
theorem not_ends_of_holders (hm : m.mayClose topic = false)
    (hh : (t.move m).broker.holders = t.broker.holders) : ¬ t.Ends topic id m := by
  rw [ends_iff_of_not_close hm, Broker.isHeld_congr hh]
  exact fun h => Bool.eq_false_iff.1 h.2 h.1

theorem ends_serve_iff {i : Nat} {p : Post} (hp : t.posts[i]? = some p) :
    t.Ends topic id (.serve i) ↔ p.listener.channel = id ∧ p.listener.Quits t.broker := by
  constructor
  · intro h
    cases h with
    | letGo hb ha =>
      have hact := Listener.act_step (isGiven t.given p.signal) p.listener t.broker
      rw [move_serve hp] at ha
      exact absurd ((Broker.isHeld_congr hact.holders_eq id).trans hb) (Bool.eq_false_iff.1 ha)
    | quit hp' hid hq =>
      cases hp.symm.trans hp'
      exact ⟨hid, hq⟩
  · exact fun h => .quit hp h.1 h.2

theorem not_ends_serve {i : Nat} (hp : t.posts[i]? = none) : ¬ t.Ends topic id (.serve i) := by
  intro h
  cases h with
  | letGo hb ha =>
    rw [move_serve_none hp, hb] at ha
    cases ha
  | quit hp' _ _ => cases hp.symm.trans hp'

/-- a move that opens no channel on the topic and changes none in what it hears -/
theorem isHeardBy_move_of_same (ho : m.opens topic = false)
    (hb : (t.move m).broker.isHeardBy topic id = t.broker.isHeardBy topic id)
    (he : ¬ t.Ends topic id m) :
    (t.move m).broker.isHeardBy topic id = true ↔ t.HeardAfter topic id m := by
  rw [HeardAfter, hb, ho]
  simp [he]

/-- a move that does nothing to a channel but perhaps let go of it -/
theorem isHeardBy_move_of_letGo (ho : ¬ (m.opens topic = true ∧ id = t.broker.next))
    (hc : (t.move m).broker.channel? id =
      if t.broker.isHeld id = true ∧ (t.move m).broker.isHeld id = false then none
      else t.broker.channel? id)
    (he : t.Ends topic id m ↔
      t.broker.isHeld id = true ∧ (t.move m).broker.isHeld id = false) :
    (t.move m).broker.isHeardBy topic id = true ↔ t.HeardAfter topic id m := by
  rw [HeardAfter, he, or_iff_right ho, Broker.isHeardBy, hc]
  by_cases hgone : t.broker.isHeld id = true ∧ (t.move m).broker.isHeld id = false
  · rw [if_pos hgone]
    simp [hgone]
  · rw [if_neg hgone]
    exact (and_iff_left hgone).symm

end

theorem Sound.isHeardBy_next {t : Timeline} (h : t.Sound) (topic : String) :
    t.broker.isHeardBy topic t.broker.next = false := by
  unfold Broker.isHeardBy
  cases hc : t.broker.channel? t.broker.next with
  | none => rfl
  | some c =>
    obtain ⟨hmem, hid⟩ := Broker.mem_of_channel? hc
    exact absurd (h.broker.free c hmem) (hid ▸ Nat.lt_irrefl _)

/-- a move that opens the next channel, and perhaps lets go of others -/
theorem Sound.isHeardBy_move_of_attach {t : Timeline} (h : t.Sound) {topic other : String}
    {id : Nat} {m : Move} (ho : m.opens topic = decide (other = topic))
    (hc : (t.move m).broker.channel? id =
      if id = t.broker.next then some ⟨t.broker.next, other, t.broker.waiting other, true⟩
      else if t.broker.isHeld id = true ∧ (t.move m).broker.isHeld id = false then none
      else t.broker.channel? id)
    (he : t.Ends topic id m ↔
      t.broker.isHeld id = true ∧ (t.move m).broker.isHeld id = false) :
    (t.move m).broker.isHeardBy topic id = true ↔ t.HeardAfter topic id m := by
  by_cases hid : id = t.broker.next
  · subst hid
    rw [if_pos rfl] at hc
    rw [HeardAfter, Broker.isHeardBy, hc, ho, h.isHeardBy_next topic]
    simp [Channel.hears]
  · rw [if_neg hid] at hc
    exact isHeardBy_move_of_letGo (fun hnew => hid hnew.2) hc he

/-! ## one move -/

section
variable (t : Timeline) (topic : String) (id : Nat)

theorem isHeardBy_closeTopic (other : String) :
    (t.move (.closeTopic other)).broker.isHeardBy topic id = true ↔
      t.HeardAfter topic id (.closeTopic other) := by
  show (t.broker.closeTopic other).isHeardBy topic id = true ↔ _
  rw [Broker.isHeardBy_closeTopic, Bool.and_eq_true, decide_eq_true_iff]
  by_cases ht : topic = other
  · subst ht
    have hends : t.Ends topic id (.closeTopic topic) := .closeTopic
    simp [HeardAfter, hends, Move.opens]
  · have hends : ¬ t.Ends topic id (.closeTopic other) :=
      not_ends_of_holders (decide_eq_false (Ne.symm ht)) rfl
    simp [HeardAfter, ht, hends, Move.opens]

theorem isHeardBy_beginReceive (source : String) :
    (t.move (.beginReceive source)).broker.isHeardBy topic id = true ↔
      t.HeardAfter topic id (.beginReceive source) := by
  rcases move_beginReceive t source with ⟨w, ht, _⟩ | ⟨i, _, ht⟩
  · exact isHeardBy_move_of_same rfl (by rw [ht]) (not_ends_of_holders rfl (by rw [ht]))
  · refine isHeardBy_move_of_letGo (fun hnew => Bool.false_ne_true hnew.1) ?_
      (ends_iff_of_not_close rfl)
    rw [ht]
    exact Broker.channel?_await_eq ..

theorem isHeardBy_look (i : Nat) :
    (t.move (.look i)).broker.isHeardBy topic id = true ↔ t.HeardAfter topic id (.look i) := by
  rcases move_look t i with ht | ⟨w, _, _, ht⟩
  · exact isHeardBy_move_of_same rfl (by rw [ht]) (not_ends_of_holders rfl (by rw [ht]))
  · refine isHeardBy_move_of_same rfl ?_ (not_ends_of_holders rfl ?_)
    · rw [ht]
      exact t.broker.isHeardBy_pull w.channel topic id
    · rw [ht]
      exact t.broker.holders_pull w.channel

/-- a step of a listener does nothing to the channels of others -/
theorem isHeardBy_serve (i : Nat) :
    (t.move (.serve i)).broker.isHeardBy topic id = true ↔ t.HeardAfter topic id (.serve i) := by
  cases hp : t.posts[i]? with
  | none => exact isHeardBy_move_of_same rfl (by rw [move_serve_none hp]) (not_ends_serve hp)
  | some p =>
    have hact := Listener.act_step (isGiven t.given p.signal) p.listener t.broker
    by_cases hid : p.listener.channel = id
    · subst hid
      rw [HeardAfter, ends_serve_iff hp, move_serve hp,
        or_iff_right fun hnew => Bool.false_ne_true hnew.1]
      exact (hact.isHeardBy_iff topic).trans (and_congr_right fun _ => not_congr (by simp))
    · refine isHeardBy_move_of_same rfl ?_ fun he => hid ((ends_serve_iff hp).1 he).1
      rw [move_serve hp]
      exact Broker.isHeardBy_congr (hact.channel?_eq (Ne.symm hid)) topic

end

theorem Sound.isHeardBy_listen {t : Timeline} (h : t.Sound) (topic : String) (id : Nat)
    (other : String) (signal : Signal) (handler : Handler.Stateful) :
    (t.move (.listen other signal handler)).broker.isHeardBy topic id = true ↔
      t.HeardAfter topic id (.listen other signal handler) := by
  have hstay : ¬ (t.broker.isHeld id = true ∧ (t.broker.attach other).isHeld id = false) :=
    fun hgone => Bool.eq_false_iff.1 hgone.2 hgone.1
  refine h.isHeardBy_move_of_attach rfl ?_ (ends_iff_of_not_close rfl)
  refine (Broker.channel?_attach h.broker.free other id).trans ?_
  exact if_congr Iff.rfl rfl (if_neg hstay).symm

/-- who hears a topic after a move: the receiver that the move opened, and those before that it did
not end -/
theorem Sound.isHeardBy_move {t : Timeline} (h : t.Sound) (topic : String) (id : Nat) (m : Move) :
    (t.move m).broker.isHeardBy topic id = true ↔ t.HeardAfter topic id m := by
  cases m with
  | send other payload =>
    exact isHeardBy_move_of_same rfl (t.broker.isHeardBy_send other topic payload id)
      (not_ends_of_holders rfl (Broker.holders_send ..))
  | subscribe source =>
    exact h.isHeardBy_move_of_attach rfl (h.broker.channel?_subscribe_eq source id)
      (ends_iff_of_not_close rfl)
  | closeTopic other => exact t.isHeardBy_closeTopic topic id other
  | beginReceive source => exact t.isHeardBy_beginReceive topic id source
  | look i => exact t.isHeardBy_look topic id i
  | letGo =>
    exact isHeardBy_move_of_letGo (fun hnew => Bool.false_ne_true hnew.1)
      (Broker.channel?_await_eq ..) (ends_iff_of_not_close rfl)
  | listen other signal handler => exact h.isHeardBy_listen topic id other signal handler
  | serve i => exact t.isHeardBy_serve topic id i
  | give signal => exact isHeardBy_move_of_same rfl rfl (not_ends_of_holders rfl rfl)
  | pass nanos => exact isHeardBy_move_of_same rfl rfl (not_ends_of_holders rfl rfl)

theorem Sound.heardBy_move_iff {t : Timeline} (h : t.Sound)
    (hd : (t.broker.channels.map Channel.id).Nodup) {topic : String} {id : Nat} {m : Move} :
    (t.move m).broker.HeardBy topic id ↔ (m.opens topic = true ∧ id = t.broker.next) ∨
      (t.broker.HeardBy topic id ∧ ¬ t.Ends topic id m) := by
  rw [Broker.heardBy_iff hd, Broker.heardBy_iff (h.distinct_move hd m)]
  exact h.isHeardBy_move topic id m

/-! ## live receivers -/

/-- no move of a run ends the receiver -/
def Lasts (t : Timeline) (topic : String) (id : Nat) (ms : List Move) : Prop :=
  ∀ ns m rest, ms = ns ++ m :: rest → ¬ (t.run ns).Ends topic id m

/-- a move of a run opened the channel on the topic, and none since ended its receiver -/
def Live (t : Timeline) (topic : String) (id : Nat) (ms : List Move) : Prop :=
  ∃ before m after, ms = before ++ m :: after ∧ m.opens topic = true ∧
    id = (t.run before).broker.next ∧ (t.run (before ++ [m])).Lasts topic id after

section
variable {t : Timeline} {topic : String} {id : Nat}

theorem lasts_nil : t.Lasts topic id [] := fun ns m rest h => by simp at h

theorem lasts_cons {m : Move} {ms : List Move} :
    t.Lasts topic id (m :: ms) ↔ ¬ t.Ends topic id m ∧ (t.move m).Lasts topic id ms := by
  constructor
  · intro h
    exact ⟨h [] m ms rfl, fun ns n rest he => h (m :: ns) n rest (congrArg (m :: ·) he)⟩
  · rintro ⟨hm, h⟩ ns n rest he
    cases ns with
    | nil =>
      cases he
      exact hm
    | cons m' ns =>
      obtain ⟨rfl, htail⟩ := List.cons.inj he
      exact h ns n rest htail

theorem not_live_nil : ¬ t.Live topic id [] := by
  rintro ⟨before, m, after, h, -⟩
  simp at h

theorem live_cons {m : Move} {ms : List Move} :
    t.Live topic id (m :: ms) ↔
      ((m.opens topic = true ∧ id = t.broker.next) ∧ (t.move m).Lasts topic id ms) ∨
        (t.move m).Live topic id ms := by
  constructor
  · rintro ⟨before, n, after, he, hopens, hid, hlasts⟩
    cases before with
    | nil =>
      cases he
      exact .inl ⟨⟨hopens, hid⟩, hlasts⟩
    | cons m' before =>
      obtain ⟨rfl, htail⟩ := List.cons.inj he
      exact .inr ⟨before, n, after, htail, hopens, hid, hlasts⟩
  · rintro (⟨⟨hopens, hid⟩, hlasts⟩ | ⟨before, n, after, rfl, hopens, hid, hlasts⟩)
    · exact ⟨[], m, ms, rfl, hopens, hid, hlasts⟩
    · exact ⟨m :: before, n, after, rfl, hopens, hid, hlasts⟩

/-- who hears a topic after a run: who heard it before and lasted, and the receivers that the run
opened and did not end -/
theorem Sound.heardBy_run_iff (h : t.Sound) (hd : (t.broker.channels.map Channel.id).Nodup)
    (ms : List Move) :
    (t.run ms).broker.HeardBy topic id ↔
      (t.broker.HeardBy topic id ∧ t.Lasts topic id ms) ∨ t.Live topic id ms := by
  induction ms generalizing t with
  | nil => simp [run_nil, lasts_nil, not_live_nil]
  | cons m ms ih =>
    rw [run_cons, ih (h.move m) (h.distinct_move hd m), h.heardBy_move_iff hd, lasts_cons,
      live_cons]
    tauto

end

/-- a topic is heard exactly while it has a live receiver -/
theorem isHeard_run_start (limit : Nat) (provider : Provider) (ms : List Move) (topic : String) :
    let t := start (.withLimit limit provider)
    (t.run ms).broker.isHeard topic = true ↔ ∃ id, t.Live topic id ms := by
  intro t
  have hnone : ∀ id, ¬ t.broker.HeardBy topic id := fun id ⟨c, hc, _⟩ => nomatch hc
  rw [Broker.isHeard_iff]
  refine exists_congr fun id => ?_
  rw [(sound_start limit provider).heardBy_run_iff List.nodup_nil]
  exact or_iff_right fun h => hnone id h.1

end Timeline

end ForgeRelay
