import ForgeRelay.Proofs.Delivery.Backlog

/-!
# The stream of a listener

A listener has one stream of messages: the backlog of its topic when it began, and then what is sent
to the topic while its channel is open.  It handles this stream in order, whatever else goes on, and
the whole of it before it returns; what comes after its channel was closed goes to the backlog when
nobody else is there to take it.

* `Manned.move`        one move: the stream grows by what is sent, and while the channel is open;
* `Manned.isOpen_move_iff`  which moves close the channel;
* `Manned.run`         a run, cut where the channel is closed;
* `face_run`           what a handler makes of messages has no part in a run;
* `listener_exactly_once`   what a listener has handled, and what becomes of the rest.
-/

namespace ForgeRelay

/-- the same listener at a later time -/
structure Post.Same (p q : Post) : Prop where
  signal : p.signal = q.signal
  channel : p.listener.channel = q.listener.channel

theorem Post.Same.trans {p q r : Post} (h : p.Same q) (h' : q.Same r) : p.Same r :=
  ⟨h.signal.trans h'.signal, h.channel.trans h'.channel⟩

/-- a post without what the handler makes of messages -/
def Post.face (p : Post) : Signal × Nat × Listener.Stage × List Bytes :=
  (p.signal, p.listener.face)

namespace Timeline

/-! ## one move -/

/-- a listener at its post, with a channel for one topic -/
structure Manned (t : Timeline) (i : Nat) (p : Post) (topic : String) : Prop where
  post : t.posts[i]? = some p
  attends : p.listener.Attends t.broker
  topic : ∀ c, t.broker.channel? p.listener.channel = some c → c.topic = topic

theorem Manned.move_self {t : Timeline} {i : Nat} {p : Post} {topic : String}
    (h : t.Manned i p topic) :
    ∃ p', (t.move (.serve i)).Manned i p' topic ∧ p'.Same p ∧
      p'.listener.stream (t.move (.serve i)).broker = p.listener.stream t.broker ∧
      ((t.move (.serve i)).broker.isOpen p.listener.channel = true →
        t.broker.isOpen p.listener.channel = true) := by
  have hact := Listener.act_step (isGiven t.given p.signal) p.listener t.broker
  refine ⟨⟨p.signal, (p.listener.step (isGiven t.given p.signal) t.broker).1⟩, ?_,
    ⟨rfl, hact.channel_eq⟩, ?_, ?_⟩
  · rw [move_serve h.post]
    refine ⟨?_, hact.attends h.attends, fun c hc => ?_⟩
    · exact List.getElem?_set_self (List.getElem?_eq_some_iff.1 h.post).1
    · dsimp only at hc
      rw [hact.channel_eq] at hc
      obtain ⟨c', hc', ht, -⟩ := hact.channel?_own hc
      exact ht.trans (h.topic c' hc')
  · rw [move_serve h.post]
    exact hact.stream_eq
  · rw [move_serve h.post]
    exact hact.isOpen_of_isOpen

theorem Manned.move_other {t : Timeline} (hs : t.Sound) {i : Nat} {p : Post} {topic : String}
    (h : t.Manned i p topic) {m : Move} (hm : m.isStepOf i = false) :
    (t.move m).Manned i p topic ∧
      p.listener.stream (t.move m).broker = p.listener.stream t.broker ++
        (if t.broker.isOpen p.listener.channel then m.sentTo topic else []) ∧
      ((t.move m).broker.isOpen p.listener.channel = true →
        t.broker.isOpen p.listener.channel = true) := by
  have hmeet := hs.channel?_move h.post hm
  have hopen : (t.move m).broker.isOpen p.listener.channel = true →
      t.broker.isOpen p.listener.channel = true := by
    unfold Broker.isOpen
    rw [hmeet, Option.any_map]
    cases t.broker.channel? p.listener.channel with
    | none => exact id
    | some c => exact fed_of_fed_meet
  refine ⟨⟨posts_move h.post hm, ⟨fun hr => ?_, fun hr => ?_, fun hd => ?_⟩, fun c hc => ?_⟩, ?_,
    hopen⟩
  · obtain ⟨c, hc⟩ := h.attends.present hr
    exact ⟨m.meet c, by rw [hmeet, hc, Option.map_some]⟩
  · rw [hmeet, h.attends.gone hr, Option.map_none]
  · exact Bool.eq_false_iff.2 fun ho => Bool.eq_false_iff.1 (h.attends.closed hd) (hopen ho)
  · rw [hmeet] at hc
    obtain ⟨c', hc', rfl⟩ := Option.map_eq_some_iff.1 hc
    rw [topic_meet, h.topic c' hc']
  · unfold Listener.stream Broker.queued Broker.isOpen
    rw [hmeet, List.append_assoc]
    cases hc : t.broker.channel? p.listener.channel with
    | none => rfl
    | some c =>
      have hq := queue_meet m c
      rw [h.topic c hc] at hq
      exact congrArg (p.listener.handled ++ ·) hq

/-- one move moves no message of a listener from its place, and adds what is sent while the channel
is open -/
theorem Manned.move {t : Timeline} (hs : t.Sound) {i : Nat} {p : Post} {topic : String}
    (h : t.Manned i p topic) (m : Move) :
    ∃ p', (t.move m).Manned i p' topic ∧ p'.Same p ∧
      p'.listener.stream (t.move m).broker = p.listener.stream t.broker ++
        (if t.broker.isOpen p.listener.channel then m.sentTo topic else []) ∧
      ((t.move m).broker.isOpen p.listener.channel = true →
        t.broker.isOpen p.listener.channel = true) := by
  cases hm : m.isStepOf i with
  | true =>
    cases m with
    | serve j =>
      obtain rfl : j = i := by simpa [Move.isStepOf] using hm
      obtain ⟨p', hp', hsame, hstream, hopen⟩ := h.move_self
      exact ⟨p', hp', hsame, by simpa [Move.sentTo] using hstream, hopen⟩
    | _ => cases hm
  | false =>
    obtain ⟨hp, hstream, hopen⟩ := h.move_other hs hm
    exact ⟨p, hp, ⟨rfl, rfl⟩, hstream, hopen⟩

/-! ## closing -/

/-- the channel of a listener is open as long as it hears its topic -/
theorem Manned.isOpen_eq {t : Timeline} {i : Nat} {p : Post} {topic : String}
    (h : t.Manned i p topic) :
    t.broker.isOpen p.listener.channel = t.broker.isHeardBy topic p.listener.channel := by
  unfold Broker.isOpen Broker.isHeardBy
  cases hc : t.broker.channel? p.listener.channel with
  | none => rfl
  | some c =>
    show c.fed = c.hears topic
    simp [Channel.hears, h.topic c hc]

/-- nobody else lets go of the channel of a listener, or closes it but with its topic -/
theorem Manned.ends_iff {t : Timeline} (hs : t.Sound) {i : Nat} {p : Post} {topic : String}
    (h : t.Manned i p topic) {m : Move} :
    t.Ends topic p.listener.channel m ↔
      m = .closeTopic topic ∨ (m = .serve i ∧ p.listener.Quits t.broker) := by
  constructor
  · intro he
    cases he with
    | closeTopic => exact .inl rfl
    | letGo hb _ =>
      refine absurd (mem_received.2 ?_) (hs.stations _ (mem_stations h.post)).2
      rcases of_decide_eq_true hb with ha | hsource
      · exact .inr (.inl ha)
      · obtain ⟨e, hmem, hid⟩ := List.mem_map.1 hsource
        exact .inl ⟨e.1, hid ▸ hmem⟩
    | @quit j q hq hid hquits =>
      by_cases hij : i = j
      · subst hij
        cases h.post.symm.trans hq
        exact .inr ⟨rfl, hquits⟩
      · exact absurd hid.symm (hs.channel_ne h.post hq hij)
  · rintro (rfl | ⟨rfl, hquits⟩)
    · exact .closeTopic
    · exact .quit h.post rfl hquits

/-- the channel of a listener stays open until its topic is closed or the listener closes it -/
theorem Manned.isOpen_move_iff {t : Timeline} (hs : t.Sound) {i : Nat} {p : Post} {topic : String}
    (h : t.Manned i p topic) (m : Move) :
    (t.move m).broker.isOpen p.listener.channel = true ↔
      t.broker.isOpen p.listener.channel = true ∧ m ≠ .closeTopic topic ∧
        ¬ (m = .serve i ∧ p.listener.stage = .leaving) := by
  have hne : p.listener.channel ≠ t.broker.next :=
    Nat.ne_of_lt (hs.stations _ (mem_stations h.post)).1
  obtain ⟨p', hp', hsame, -⟩ := h.move hs m
  have hafter := hp'.isOpen_eq
  rw [hsame.channel] at hafter
  rw [hafter, hs.isHeardBy_move, HeardAfter, h.ends_iff hs, ← h.isOpen_eq]
  constructor
  · rintro (⟨-, hnext⟩ | ⟨ho, hends⟩)
    · exact absurd hnext hne
    · exact ⟨ho, fun hc => hends (.inl hc), fun hl => hends (.inr ⟨hl.1, .inl hl.2⟩)⟩
  · rintro ⟨ho, hclose, hleave⟩
    refine .inr ⟨ho, ?_⟩
    rintro (hc | ⟨hserve, hl | ⟨hd, -⟩⟩)
    · exact hclose hc
    · exact hleave ⟨hserve, hl⟩
    · -- it was closed before it drained
      exact Bool.eq_false_iff.1 (h.attends.closed hd) ho

/-! ## runs -/

/-- a run cut where a channel is closed: it is open before each move of the first part, and closed
before each move of the second -/
structure OpenDuring (t : Timeline) (id : Nat) (during rest : List Move) : Prop where
  isOpen : t.Throughout during fun u => u.broker.isOpen id = true
  closed : (t.run during).Throughout rest fun u => u.broker.isOpen id = false

theorem Manned.run_closed {t : Timeline} (hs : t.Sound) {i : Nat} {p : Post} {topic : String}
    (h : t.Manned i p topic) (hc : t.broker.isOpen p.listener.channel = false) (ms : List Move) :
    ∃ p', (t.run ms).Manned i p' topic ∧ p'.Same p ∧
      p'.listener.stream (t.run ms).broker = p.listener.stream t.broker ∧
      (t.run ms).broker.isOpen p.listener.channel = false := by
  induction ms generalizing t p with
  | nil => exact ⟨p, h, ⟨rfl, rfl⟩, rfl, hc⟩
  | cons m ms ih =>
    obtain ⟨p', hp', hsame, hstream, hopen⟩ := h.move hs m
    have hc' : (t.move m).broker.isOpen p.listener.channel = false :=
      Bool.eq_false_iff.2 fun ho => Bool.eq_false_iff.1 hc (hopen ho)
    rw [hc, if_neg Bool.false_ne_true, List.append_nil] at hstream
    obtain ⟨q, hq, hsame', hstream', hclosed⟩ := ih (hs.move m) hp' (hsame.channel ▸ hc')
    exact ⟨q, hq, hsame'.trans hsame, hstream'.trans hstream, hsame.channel ▸ hclosed⟩

/-- the stream of a listener at the end of a run -/
theorem Manned.run {t : Timeline} (hs : t.Sound) {i : Nat} {p : Post} {topic : String}
    (h : t.Manned i p topic) (ms : List Move) :
    ∃ p' during rest, (t.run ms).Manned i p' topic ∧ p'.Same p ∧ ms = during ++ rest ∧
      t.OpenDuring p.listener.channel during rest ∧
      p'.listener.stream (t.run ms).broker = p.listener.stream t.broker ++ sentTo topic during := by
  induction ms generalizing t p with
  | nil =>
    refine ⟨p, [], [], h, ⟨rfl, rfl⟩, rfl, ⟨throughout_nil _ _, throughout_nil _ _⟩, ?_⟩
    rw [sentTo_nil, List.append_nil, run_nil]
  | cons m ms ih =>
    cases ho : t.broker.isOpen p.listener.channel with
    | false =>
      obtain ⟨p', hp', hsame, hstream, -⟩ := h.run_closed hs ho (m :: ms)
      refine ⟨p', [], m :: ms, hp', hsame, rfl, ⟨throughout_nil _ _, fun ns n ns' _ => ?_⟩, ?_⟩
      · obtain ⟨_, _, _, _, hclosed⟩ := h.run_closed hs ho ns
        exact hclosed
      · rw [sentTo_nil, List.append_nil, hstream]
    | true =>
      obtain ⟨p', hp', hsame, hstream, -⟩ := h.move hs m
      rw [ho, if_pos rfl] at hstream
      obtain ⟨q, during, rest, hq, hsame', rfl, hcut, hstream'⟩ := ih (hs.move m) hp'
      rw [hsame.channel] at hcut
      refine ⟨q, m :: during, rest, hq, hsame'.trans hsame, rfl,
        ⟨throughout_cons.2 ⟨ho, hcut.isOpen⟩, hcut.closed⟩, ?_⟩
      rw [sentTo_cons, ← List.append_assoc, ← hstream, ← hstream', run_cons]

/-! ## where messages go -/

/-- a topic that only the listener may hear is heard as long as its channel is open -/
theorem Manned.isHeard_eq {t : Timeline} {i : Nat} {p : Post} {topic : String}
    (h : t.Manned i p topic) (hd : (t.broker.channels.map Channel.id).Nodup)
    (honly : ∀ id, t.broker.HeardBy topic id → id = p.listener.channel) :
    t.broker.isHeard topic = t.broker.isOpen p.listener.channel := by
  rw [Bool.eq_iff_iff, Broker.isHeard_iff]
  constructor
  · rintro ⟨id, hid⟩
    obtain rfl := honly id hid
    obtain ⟨c, hc, hcid, hh⟩ := hid
    refine (Option.any_eq_true _ _).2 ⟨c, hcid ▸ Broker.channel?_of_mem hd hc, ?_⟩
    unfold Channel.hears at hh
    exact (Bool.and_eq_true_iff.1 hh).1
  · intro ho
    obtain ⟨c, hc, hfed⟩ := (Option.any_eq_true _ _).1 ho
    obtain ⟨hmem, hid⟩ := Broker.mem_of_channel? hc
    refine ⟨p.listener.channel, c, hmem, hid, ?_⟩
    simp [Channel.hears, hfed, h.topic c hc]

theorem Manned.isHeard_run {t : Timeline} (hs : t.Sound) {i : Nat} {p : Post} {topic : String}
    (h : t.Manned i p topic) (hd : (t.broker.channels.map Channel.id).Nodup)
    (honly : ∀ id, t.broker.HeardBy topic id → id = p.listener.channel) {ms : List Move}
    (hopens : ∀ m ∈ ms, m.opens topic = false) :
    (t.run ms).broker.isHeard topic = (t.run ms).broker.isOpen p.listener.channel := by
  obtain ⟨p', -, -, hp', hsame, -⟩ := h.run hs ms
  rw [← hsame.channel]
  refine hp'.isHeard_eq (hs.distinct_run hd ms) fun id hid => ?_
  rw [hsame.channel]
  exact honly id (heardBy_of_run hopens hid)

/-- a listener that is alone on its topic leaves to the backlog what it does not take itself -/
theorem Manned.waiting_alone {t : Timeline} (hs : t.Sound) {i : Nat} {p : Post} {topic : String}
    (h : t.Manned i p topic) (hd : (t.broker.channels.map Channel.id).Nodup)
    (honly : ∀ id, t.broker.HeardBy topic id → id = p.listener.channel) (hstocked : t.Stocked topic)
    (hempty : t.broker.waiting topic = []) {during rest : List Move}
    (hopens : ∀ m ∈ during ++ rest, m.opens topic = false)
    (hcut : t.OpenDuring p.listener.channel during rest)
    (hlen : (sentTo topic rest).length ≤ t.broker.limit) :
    (t.run (during ++ rest)).broker.waiting topic = sentTo topic rest := by
  have hduring : ∀ m ∈ during, m.opens topic = false := fun m hm =>
    hopens m (List.mem_append_left _ hm)
  have hrest : ∀ m ∈ rest, m.opens topic = false := fun m hm =>
    hopens m (List.mem_append_right _ hm)
  have hheard : t.Throughout during fun u => u.broker.isHeard topic = true := by
    intro ns m ns' he
    have hns : ∀ n ∈ ns, n.opens topic = false := fun n hn =>
      hduring n (he ▸ List.mem_append_left _ hn)
    exact (h.isHeard_run hs hd honly hns).trans (hcut.isOpen ns m ns' he)
  have hunheard : (t.run during).Throughout rest fun u => u.broker.isHeard topic = false := by
    intro ns m ns' he
    have hns : ∀ n ∈ during ++ ns, n.opens topic = false := fun n hn => by
      rcases List.mem_append.1 hn with hn | hn
      · exact hduring n hn
      · exact hrest n (he ▸ List.mem_append_left _ hn)
    have hclosed := hcut.closed ns m ns' he
    rw [← run_append] at hclosed ⊢
    exact (h.isHeard_run hs hd honly hns).trans hclosed
  rw [run_append, waiting_run_of_unheard (hstocked.run during) hrest hunheard,
    waiting_run_of_heard hstocked hduring hheard, hempty, List.nil_append, limit_run]
  exact Broker.keepLast_of_length_le hlen

/-- the post at which a listener begins -/
def newPost (t : Timeline) (signal : Signal) (handler : Handler.Stateful) : Post :=
  ⟨signal, t.broker.next, .serving, handler, []⟩

theorem Sound.manned_listen {t : Timeline} (h : t.Sound) (topic : String) (signal : Signal)
    (handler : Handler.Stateful) :
    (t.move (.listen topic signal handler)).Manned t.posts.length (t.newPost signal handler)
        topic ∧
      (t.newPost signal handler).listener.stream (t.move (.listen topic signal handler)).broker =
        t.broker.waiting topic := by
  have hc : (t.broker.attach topic).channel? t.broker.next =
      some ⟨t.broker.next, topic, t.broker.waiting topic, true⟩ := by
    rw [Broker.channel?_attach h.broker.free, if_pos rfl]
  refine ⟨⟨?_, ⟨fun _ => ⟨_, hc⟩, fun hs => ?_, fun hs => ?_⟩, fun c hc' => ?_⟩, ?_⟩
  · exact List.getElem?_concat_length
  · cases hs
  · cases hs
  · cases hc.symm.trans hc'
    rfl
  · show [] ++ (t.broker.attach topic).queued t.broker.next = _
    unfold Broker.queued
    rw [hc]
    rfl

theorem Sound.isOpen_listen {t : Timeline} (h : t.Sound) (topic : String) (signal : Signal)
    (handler : Handler.Stateful) :
    (t.move (.listen topic signal handler)).broker.isOpen t.broker.next = true := by
  show ((t.broker.attach topic).channel? t.broker.next).any (·.fed) = true
  rw [Broker.channel?_attach h.broker.free, if_pos rfl]
  rfl

/-- who listens to a topic that nobody hears is alone there -/
theorem only_listen {t : Timeline} {topic : String} (h : t.broker.isHeard topic = false)
    (signal : Signal) (handler : Handler.Stateful) {id : Nat}
    (hid : (t.move (.listen topic signal handler)).broker.HeardBy topic id) :
    id = (t.newPost signal handler).listener.channel := by
  obtain ⟨c, hc, rfl, hh⟩ := hid
  rcases List.mem_append.1 hc with hc | hc
  · exact absurd (Broker.isHeard_iff.2 ⟨c.id, c, hc, rfl, hh⟩) (Bool.eq_false_iff.1 h)
  · rw [List.mem_singleton.1 hc]
    rfl

/-! ## returning -/

/-- a listener returns once its signal is given and it is let go on -/
theorem returned_of_give {t : Timeline} {i : Nat} {p : Post} (hp : t.posts[i]? = some p) :
    ∃ l, (t.run (.give p.signal ::
        List.replicate ((t.broker.queued p.listener.channel).length + 3) (.serve i))).posts[i]? =
      some ⟨p.signal, l⟩ ∧ l.stage = .returned := by
  have hg : isGiven (p.signal :: t.given) p.signal = true := by simp [isGiven]
  have hgiven : (t.move (.give p.signal)).posts[i]? = some p := hp
  rw [run_cons, run_serve hgiven]
  refine ⟨_, List.getElem?_set_self (List.getElem?_eq_some_iff.1 hp).1, ?_⟩
  show (p.listener.steps (isGiven (p.signal :: t.given) p.signal) _ t.broker).1.stage = _
  rw [hg]
  refine Listener.stage_steps ?_
  rw [← Listener.pending_eq]
  exact Listener.left_le p.listener t.broker

/-! ## the part of the handler -/

/-- a timeline without what handlers make of messages -/
def face (t : Timeline) : Timeline × List (Signal × Nat × Listener.Stage × List Bytes) :=
  ({ t with posts := [] }, t.posts.map Post.face)

/-- two timelines that look the same differ in their posts at most -/
theorem exists_posts_of_face {t t' : Timeline} (h : t.face = t'.face) :
    ∃ posts, t' = { t with posts := posts } ∧ t.posts.map Post.face = posts.map Post.face := by
  obtain ⟨b, now, waits, posts, given, crew⟩ := t
  obtain ⟨b', now', waits', posts', given', crew'⟩ := t'
  have hposts : posts.map Post.face = posts'.map Post.face := congrArg Prod.snd h
  have hrest := congrArg Prod.fst h
  simp only [face, mk.injEq] at hrest
  obtain ⟨rfl, rfl, rfl, -, rfl, rfl⟩ := hrest
  exact ⟨posts', rfl, hposts⟩

theorem face_serve {t t' : Timeline} (h : t.face = t'.face) (i : Nat) :
    (t.move (.serve i)).face = (t'.move (.serve i)).face := by
  obtain ⟨posts', rfl, hposts⟩ := exists_posts_of_face h
  have hget : (t.posts[i]?).map Post.face = (posts'[i]?).map Post.face := by
    rw [← List.getElem?_map, ← List.getElem?_map, hposts]
  cases hp : t.posts[i]? with
  | none =>
    rw [hp, Option.map_none, eq_comm, Option.map_eq_none_iff] at hget
    rw [move_serve_none hp, move_serve_none hget]
    exact h
  | some p =>
    rw [hp, Option.map_some, eq_comm] at hget
    obtain ⟨p', hp', hface⟩ := Option.map_eq_some_iff.1 hget
    have hsignal : p'.signal = p.signal := congrArg Prod.fst hface
    obtain ⟨hl, hb⟩ :=
      Listener.step_congr (congrArg Prod.snd hface) (isGiven t.given p.signal) t.broker
    rw [move_serve hp, move_serve hp']
    dsimp only
    rw [hsignal]
    refine Prod.ext ?_ ?_
    · unfold face
      dsimp only
      rw [hb]
    · show (t.posts.set i _).map _ = (posts'.set i _).map _
      rw [List.map_set, List.map_set, hposts]
      unfold Post.face
      dsimp only
      rw [hl]

theorem face_listen {t t' : Timeline} (h : t.face = t'.face) (topic : String) (signal : Signal)
    (handler handler' : Handler.Stateful) :
    (t.move (.listen topic signal handler)).face =
      (t'.move (.listen topic signal handler')).face := by
  obtain ⟨posts', rfl, hposts⟩ := exists_posts_of_face h
  refine Prod.ext rfl ?_
  show (t.posts ++ [_]).map _ = (posts' ++ [_]).map _
  rw [List.map_append, List.map_append, hposts]
  rfl

theorem face_move {t t' : Timeline} (h : t.face = t'.face) (m : Move) :
    (t.move m).face = (t'.move m).face := by
  obtain ⟨posts', rfl, hposts⟩ := exists_posts_of_face h
  cases m with
  | send _ _ => exact Prod.ext rfl hposts
  | subscribe _ => exact Prod.ext rfl hposts
  | closeTopic _ => exact Prod.ext rfl hposts
  | beginReceive source =>
    unfold face move
    dsimp only
    split <;> exact Prod.ext rfl hposts
  | look i =>
    unfold face move
    dsimp only
    split
    · exact Prod.ext rfl hposts
    · split <;> exact Prod.ext rfl hposts
  | letGo => exact Prod.ext rfl hposts
  | listen topic signal handler => exact face_listen h topic signal handler handler
  | serve i => exact face_serve h i
  | give _ => exact Prod.ext rfl hposts
  | pass _ => exact Prod.ext rfl hposts

theorem face_run {t t' : Timeline} (h : t.face = t'.face) (ms : List Move) :
    (t.run ms).face = (t'.run ms).face := by
  induction ms generalizing t t' with
  | nil => exact h
  | cons m ms ih => exact ih (face_move h m)

theorem post_of_face {t t' : Timeline} (h : t.face = t'.face) {i : Nat} {p : Post}
    (hp : t.posts[i]? = some p) :
    ∃ p', t'.posts[i]? = some p' ∧ p'.face = p.face := by
  have hposts : t.posts.map Post.face = t'.posts.map Post.face := congrArg Prod.snd h
  have hget : (t'.posts[i]?).map Post.face = some p.face := by
    rw [← List.getElem?_map, ← hposts, List.getElem?_map, hp, Option.map_some]
  obtain ⟨p', hp', hface⟩ := Option.map_eq_some_iff.1 hget
  exact ⟨p', hp', hface⟩

/-! ## main result -/

/-- **A listener handles each message of its stream once and in order, whatever its handler makes of
them, and its shutdown loses nothing.**  Its channel is open from the beginning until the topic is
closed or the listener, leaving, closes it. -/
theorem listener_exactly_once (provider : Provider) {limit : Nat} (hlimit : 1 ≤ limit)
    (before after : List Move) (topic : String) (signal : Signal) (handler : Handler.Stateful) :
    let t := (start (.withLimit limit provider)).run before
    let i := t.posts.length
    let opened := t.move (.listen topic signal handler)
    let last := opened.run after
    ∃ l during rest, last.posts[i]? = some ⟨signal, l⟩ ∧
      after = during ++ rest ∧ opened.OpenDuring l.channel during rest ∧
      opened.broker.isOpen l.channel = true ∧
      (∀ ms m ms', after = ms ++ m :: ms' →
        let u := opened.run ms
        (u.move m).broker.isOpen l.channel = true ↔
          u.broker.isOpen l.channel = true ∧ m ≠ .closeTopic topic ∧
            ¬ (m = .serve i ∧ (u.posts[i]?).map (·.listener.stage) = some .leaving)) ∧
      l.handled ++ last.broker.queued l.channel = t.broker.waiting topic ++ sentTo topic during ∧
      (l.stage = .returned → l.handled = t.broker.waiting topic ++ sentTo topic during) ∧
      (∃ l', (last.run (.give signal ::
          List.replicate ((last.broker.queued l.channel).length + 3) (.serve i))).posts[i]? =
        some ⟨signal, l'⟩ ∧ l'.stage = .returned) ∧
      (∀ handler', ∃ l', ((t.move (.listen topic signal handler')).run after).posts[i]? =
        some ⟨signal, l'⟩ ∧ l'.stage = l.stage ∧ l'.handled = l.handled) ∧
      (∀ ms payload ms', rest = ms ++ .send topic payload :: ms' →
        let u := opened.run (during ++ ms)
        u.broker.isHeard topic = false →
        (u.move (.send topic payload)).broker.waiting topic =
          Broker.keepLast (limit - 1) (u.broker.waiting topic) ++ [payload]) ∧
      (t.broker.isHeard topic = false → (∀ m ∈ after, m.opens topic = false) →
        (sentTo topic rest).length ≤ limit → l.stage = .returned →
        l.handled ++ last.broker.waiting topic =
          t.broker.waiting topic ++ sentTo topic after) := by
  intro t i opened last
  have hs : t.Sound := (sound_start limit provider).run before
  have hs' : opened.Sound := hs.move _
  have hstocked : opened.Stocked topic := ((stocked_start limit provider topic).run before).move _
  have hl : opened.broker.limit = limit := (limit_move t _).trans (limit_run _ before)
  have hd : (opened.broker.channels.map Channel.id).Nodup :=
    hs.distinct_move ((sound_start limit provider).distinct_run List.nodup_nil before) _
  obtain ⟨hp, hstream⟩ := hs.manned_listen topic signal handler
  obtain ⟨⟨signal', l⟩, during, rest, hp', ⟨hsignal, hchannel⟩, hafter, hcut, hstream'⟩ :=
    hp.run hs' after
  obtain rfl : signal' = signal := hsignal
  have hall : l.handled ++ last.broker.queued l.channel =
      t.broker.waiting topic ++ sentTo topic during := hstream'.trans (hstream ▸ rfl)
  have hreturned : l.stage = .returned →
      l.handled = t.broker.waiting topic ++ sentTo topic during :=
    fun hr => (hp'.attends.handled_eq hr).trans hall
  have hreturns := returned_of_give hp'.post
  refine ⟨l, during, rest, hp'.post, hafter, hchannel ▸ hcut,
    hchannel ▸ hs.isOpen_listen topic signal' handler, fun ms m ms' _ => ?_, hall, hreturned,
    hreturns, fun handler' => ?_, fun ms payload ms' _ => ?_, fun hunheard hopens hlen hr => ?_⟩
  · intro u
    obtain ⟨q, -, -, hq, hsame, -⟩ := hp.run hs' ms
    have hmove := hq.isOpen_move_iff (hs'.run ms) m
    rw [hsame.channel, ← hchannel] at hmove
    rw [hmove, hq.post, Option.map_some, Option.some.injEq]
  · obtain ⟨⟨_, l'⟩, hpost, hface⟩ :=
      post_of_face (face_run (face_listen (rfl : t.face = t.face) topic signal' handler handler') after) hp'.post
    simp only [Post.face, Listener.face, Prod.mk.injEq] at hface
    obtain ⟨rfl, -, hstage, hhandled⟩ := hface
    exact ⟨l', hpost, hstage, hhandled⟩
  · intro u hu
    have hlu : u.broker.limit = limit := (limit_run opened _).trans hl
    refine (u.broker.waiting_send topic topic payload).trans ?_
    rw [if_pos ⟨hu, rfl⟩, hlu, Broker.keepLast_append_singleton hlimit]
  · have hempty : opened.broker.waiting topic = [] := waiting_of_opens t (decide_eq_true rfl)
    have hw := hp.waiting_alone hs' hd (fun _ => only_listen hunheard signal' handler) hstocked
      hempty (hafter ▸ hopens) hcut (hl ▸ hlen)
    rw [← hafter] at hw
    rw [hreturned hr, hw, List.append_assoc, ← sentTo_append, ← hafter]

/-- a message that the handler refuses is not handled again, one that comes before the channel is
closed is drained, and one that comes later waits for the next receiver -/
theorem listener_drains_once_told :
    let t := (start (.withLimit 2 ⟨"loop", "memory", "", ⟨0⟩⟩)).run [.send "push" [1]]
    let after : List Move := [.serve 0, .give (.crew 0), .serve 0, .send "push" [2], .serve 0,
      .send "push" [3], .serve 0, .serve 0]
    let refuse : Handler.Stateful := fun _ _ => .error (.timeout ⟨0⟩)
    let last := (t.move (.listen "push" (.crew 0) refuse)).run after
    1 ≤ 2 ∧ ∃ l : Listener, last.posts[0]? = some ⟨.crew 0, l⟩ ∧ l.stage = .returned ∧
      l.handled ++ last.broker.waiting "push" = [[1], [2], [3]] := by
  intro t after refuse last
  obtain ⟨l, during, rest, hpost, hafter, -, -, -, -, -, -, -, -, hsingle⟩ :=
    listener_exactly_once ⟨"loop", "memory", "", ⟨0⟩⟩ (by decide : 1 ≤ 2) [.send "push" [1]] after
      "push" (.crew 0) refuse
  have hlast : last.posts[0]? = some ⟨.crew 0, l⟩ := hpost
  have hreturned : l.stage = .returned := by
    have hstage : (last.posts[0]?).map (fun p : Post => p.listener.stage) = some .returned := by
      decide
    rw [hlast] at hstage
    exact Option.some.inj hstage
  have hlen : (sentTo "push" rest).length ≤ 2 := by
    have hsent : (sentTo "push" after).length = 2 := by decide
    rw [hafter, sentTo_append, List.length_append] at hsent
    omega
  refine ⟨by decide, l, hlast, hreturned, ?_⟩
  exact (hsingle (by decide) (by decide) hlen hreturned).trans (by decide)

end Timeline

end ForgeRelay
