import ForgeRelay.Delivery.Listener
import ForgeRelay.Proofs.Delivery.Subscriptions

/-!
# The steps of a listener

`Listener.Act` lists what a step of a listener can be: it takes a message, waits, leaves, closes its
channel, returns, or rests after that.

* `Listener.act_step`       every step is one of these;
* `Listener.Act.stream_eq`  no step moves a message from its place: what was handled and what waits
                            make up one stream, which the steps of the listener keep;
* `Listener.settle_true`    a listener that is told to stop returns with all of it handled;
* `Listener.step_congr`     what the handler makes of messages has no part in what a step does.
-/

namespace ForgeRelay

namespace Broker

/-- who holds which channels -/
def holders (b : Broker) : Nat × List (String × Nat) × List Nat :=
  (b.next, b.subscriptions, b.awaited)

theorem holders_pull (b : Broker) (id : Nat) : (b.pull id).2.holders = b.holders := by
  unfold pull
  split
  · rfl
  · split <;> rfl

/-- looking in vain changes nothing -/
theorem pull_snd {b : Broker} {id : Nat} (h : ∀ payload, (b.pull id).1 ≠ .message payload) :
    (b.pull id).2 = b := by
  unfold pull at h ⊢
  split
  · rfl
  · rename_i c hc
    simp only [hc] at h
    split
    · rename_i payload rest hq
      simp only [hq] at h
      exact absurd rfl (h payload)
    · rfl

theorem channel?_closeChannel (b : Broker) (i id : Nat) :
    (b.closeChannel i).channel? id =
      if id = i then (b.channel? id).map Channel.close else b.channel? id :=
  channel?_changeChannel b i (f := Channel.close) (fun _ => rfl) id

/-- whether messages still come in on a channel -/
def isOpen (b : Broker) (id : Nat) : Bool := (b.channel? id).any (·.fed)

/-- the messages on a channel -/
def queued (b : Broker) (id : Nat) : List Bytes := ((b.channel? id).map Channel.queue).getD []

theorem front_eq_message {c : Channel} {payload : Bytes} (h : c.front = .message payload) :
    c.queue = payload :: c.queue.tail := by
  unfold Channel.front at h
  split at h
  · rename_i hq
    cases h
    rw [hq]
    rfl
  · split at h <;> cases h

theorem queue_eq_nil_of_front {c : Channel} (h : ∀ payload, c.front ≠ .message payload) :
    c.queue = [] := by
  unfold Channel.front at h
  split at h
  · exact absurd rfl (h _)
  · assumption

theorem queued_pull {b : Broker} {id : Nat} {payload : Bytes}
    (h : (b.pull id).1 = .message payload) :
    b.queued id = payload :: (b.pull id).2.queued id := by
  rw [pull_fst] at h
  unfold queued
  rw [channel?_pull, if_pos rfl]
  cases hc : b.channel? id with
  | none =>
    rw [hc] at h
    cases h
  | some c =>
    rw [hc] at h
    exact front_eq_message h

theorem queued_eq_nil {b : Broker} {id : Nat} (h : ∀ payload, (b.pull id).1 ≠ .message payload) :
    b.queued id = [] := by
  simp only [pull_fst] at h
  unfold queued
  cases hc : b.channel? id with
  | none => rfl
  | some c =>
    simp only [hc] at h
    exact queue_eq_nil_of_front h

theorem queued_closeChannel (b : Broker) (id : Nat) :
    (b.closeChannel id).queued id = b.queued id := by
  unfold queued
  rw [channel?_closeChannel, if_pos rfl, Option.map_map]
  rfl

end Broker

namespace Listener

/-- what a step can be -/
inductive Act (stop : Bool) (l : Listener) (b : Broker) : Listener → Broker → Prop where
  | take (payload : Bytes) (hs : l.stage = .serving ∨ l.stage = .draining)
      (hp : (b.pull l.channel).1 = .message payload) :
      Act stop l b (l.handle payload) (b.pull l.channel).2
  | wait (hs : l.stage = .serving) (hp : (b.pull l.channel).1 = .empty) (hstop : stop = false) :
      Act stop l b l b
  | leave (hs : l.stage = .serving) (hp : ∀ payload, (b.pull l.channel).1 ≠ .message payload) :
      Act stop l b { l with stage := .leaving } b
  | close (hs : l.stage = .leaving) :
      Act stop l b { l with stage := .draining } (b.closeChannel l.channel)
  | finish (hs : l.stage = .draining) (hp : ∀ payload, (b.pull l.channel).1 ≠ .message payload) :
      Act stop l b { l with stage := .returned } (b.dropChannel l.channel)
  | rest (hs : l.stage = .returned) : Act stop l b l b

theorem act_step (stop : Bool) (l : Listener) (b : Broker) :
    Act stop l b (l.step stop b).1 (l.step stop b).2 := by
  unfold step
  split
  · rename_i hs
    split
    · rename_i payload b' hp
      have htake : Act stop l b _ _ := .take payload (.inl hs) (congrArg Prod.fst hp)
      rwa [hp] at htake
    · rename_i b' hp
      have hmessage : ∀ payload, (b.pull l.channel).1 ≠ .message payload := by simp [hp]
      have hb := Broker.pull_snd hmessage
      rw [hp] at hb
      dsimp only at hb ⊢
      rw [hb]
      exact .leave hs hmessage
    · rename_i b' hp
      have hmessage : ∀ payload, (b.pull l.channel).1 ≠ .message payload := by simp [hp]
      have hb := Broker.pull_snd hmessage
      by_cases hstop : stop = true
      · rw [hp] at hb
        dsimp only at hb ⊢
        rw [if_pos hstop, hb]
        exact .leave hs hmessage
      · have hempty : (b.pull l.channel).1 = .empty := by rw [hp]
        rw [hp] at hb
        dsimp only at hb ⊢
        rw [if_neg hstop, hb]
        exact .wait hs hempty (Bool.eq_false_iff.2 hstop)
  · rename_i hs
    exact .close hs
  · rename_i hs
    split
    · rename_i payload b' hp
      have htake : Act stop l b _ _ := .take payload (.inr hs) (congrArg Prod.fst hp)
      rwa [hp] at htake
    · rename_i p b' hnot hp
      have hmessage : ∀ payload, (b.pull l.channel).1 ≠ .message payload := by
        intro payload h
        rw [hp] at h
        exact hnot payload h
      have hb := Broker.pull_snd hmessage
      rw [hp] at hb
      dsimp only at hb ⊢
      rw [hb]
      exact .finish hs hmessage
  · rename_i hs
    exact .rest hs

/-- what was handled, and then what waits to be -/
def stream (l : Listener) (b : Broker) : List Bytes := l.handled ++ b.queued l.channel

/-- the channel is there until the listener has returned, and closed once it drains -/
structure Attends (l : Listener) (b : Broker) : Prop where
  present : l.stage ≠ .returned → ∃ c, b.channel? l.channel = some c
  gone : l.stage = .returned → b.channel? l.channel = none
  closed : l.stage = .draining → b.isOpen l.channel = false

namespace Act

variable {stop : Bool} {l l' : Listener} {b b' : Broker}

theorem channel_eq (h : Act stop l b l' b') : l'.channel = l.channel := by
  cases h <;> rfl

theorem holders_eq (h : Act stop l b l' b') : b'.holders = b.holders := by
  cases h with
  | take payload _ _ => exact Broker.holders_pull b l.channel
  | wait _ _ _ => rfl
  | leave _ _ => rfl
  | close _ => rfl
  | finish _ _ => rfl
  | rest _ => rfl

/-- a listener keeps to its own channel -/
theorem channel?_eq (h : Act stop l b l' b') {id : Nat} (hid : id ≠ l.channel) :
    b'.channel? id = b.channel? id := by
  cases h with
  | take payload _ _ => rw [Broker.channel?_pull, if_neg hid]
  | wait _ _ _ => rfl
  | leave _ _ => rfl
  | close _ => rw [Broker.channel?_closeChannel, if_neg hid]
  | finish _ _ => rw [Broker.channel?_dropChannel, if_neg hid]
  | rest _ => rfl

/-- the channel of the listener stays on its topic, and is fed no more than before -/
theorem channel?_own (h : Act stop l b l' b') {c' : Channel}
    (hc : b'.channel? l.channel = some c') :
    ∃ c, b.channel? l.channel = some c ∧ c'.topic = c.topic ∧ (c'.fed = true → c.fed = true) := by
  cases h with
  | take payload _ _ =>
    rw [Broker.channel?_pull, if_pos rfl] at hc
    obtain ⟨c, hfound, rfl⟩ := Option.map_eq_some_iff.1 hc
    exact ⟨c, hfound, rfl, id⟩
  | wait _ _ _ => exact ⟨c', hc, rfl, id⟩
  | leave _ _ => exact ⟨c', hc, rfl, id⟩
  | close _ =>
    rw [Broker.channel?_closeChannel, if_pos rfl] at hc
    obtain ⟨c, hfound, rfl⟩ := Option.map_eq_some_iff.1 hc
    exact ⟨c, hfound, rfl, fun hfed => by cases hfed⟩
  | finish _ _ =>
    rw [Broker.channel?_dropChannel, if_pos rfl] at hc
    cases hc
  | rest _ => exact ⟨c', hc, rfl, id⟩

theorem sound (h : Act stop l b l' b') (hb : b.Sound)
    (hl : ∀ name, Keyed.lookup name b.subscriptions ≠ some l.channel) : b'.Sound := by
  cases h with
  | take payload _ _ => exact hb.pull l.channel
  | wait _ _ _ => exact hb
  | leave _ _ => exact hb
  | close _ => exact hb.changeChannel l.channel fun _ => rfl
  | finish _ _ => exact hb.dropChannel hl
  | rest _ => exact hb

/-- no message goes from its place -/
theorem stream_eq (h : Act stop l b l' b') : l'.stream b' = l.stream b := by
  cases h with
  | take payload _ hp =>
    show (l.handle payload).handled ++ (b.pull l.channel).2.queued l.channel = _
    rw [handled_handle, List.append_assoc, List.singleton_append, ← Broker.queued_pull hp]
    rfl
  | wait _ _ _ => rfl
  | leave _ _ => rfl
  | close _ =>
    show l.handled ++ (b.closeChannel l.channel).queued l.channel = _
    rw [Broker.queued_closeChannel]
    rfl
  | finish _ hp =>
    show l.handled ++ (b.dropChannel l.channel).queued l.channel = l.handled ++ _
    rw [Broker.queued_eq_nil hp]
    unfold Broker.queued
    rw [Broker.channel?_dropChannel, if_pos rfl]
    rfl
  | rest _ => rfl

/-- what is closed stays closed -/
theorem isOpen_of_isOpen (h : Act stop l b l' b') (ho : b'.isOpen l.channel = true) :
    b.isOpen l.channel = true := by
  obtain ⟨c', hc', hfed⟩ := (Option.any_eq_true _ _).1 ho
  obtain ⟨c, hc, -, hkeep⟩ := h.channel?_own hc'
  exact (Option.any_eq_true _ _).2 ⟨c, hc, hkeep hfed⟩

theorem attends (h : Act stop l b l' b') (ha : l.Attends b) : l'.Attends b' := by
  have hclosed : b.isOpen l.channel = false → b'.isOpen l.channel = false := fun ho =>
    Bool.eq_false_iff.2 fun ho' => Bool.eq_false_iff.1 ho (h.isOpen_of_isOpen ho')
  cases h with
  | take payload hs _ =>
    have hr : l.stage ≠ .returned := by
      rcases hs with hs | hs <;> rw [hs] <;> decide
    refine ⟨fun _ => ?_, fun hs' => absurd hs' hr, fun hs' => hclosed (ha.closed hs')⟩
    obtain ⟨c, hc⟩ := ha.present hr
    refine ⟨c.advance, ?_⟩
    show (b.pull l.channel).2.channel? l.channel = _
    rw [Broker.channel?_pull, if_pos rfl, hc, Option.map_some]
  | wait _ _ _ => exact ha
  | leave hs _ =>
    refine ⟨fun _ => ha.present (by rw [hs]; decide), fun hs' => ?_, fun hs' => ?_⟩
    · cases hs'
    · cases hs'
  | close hs =>
    obtain ⟨c, hc⟩ := ha.present (by rw [hs]; decide)
    have hclose : (b.closeChannel l.channel).channel? l.channel = some c.close := by
      rw [Broker.channel?_closeChannel, if_pos rfl, hc, Option.map_some]
    refine ⟨fun _ => ⟨c.close, hclose⟩, fun hs' => ?_, fun _ => ?_⟩
    · cases hs'
    · show ((b.closeChannel l.channel).channel? l.channel).any (·.fed) = false
      rw [hclose]
      rfl
  | finish _ _ =>
    refine ⟨fun hs' => absurd rfl hs', fun _ => ?_, fun hs' => ?_⟩
    · show (b.dropChannel l.channel).channel? l.channel = none
      rw [Broker.channel?_dropChannel, if_pos rfl]
    · cases hs'
  | rest _ => exact ha

end Act

/-! ## coming to an end -/

/-- the steps of its own after which a listener that is told to stop has returned -/
def left (l : Listener) (b : Broker) : Nat :=
  match l.stage with
  | .serving => (b.queued l.channel).length + 3
  | .leaving => (b.queued l.channel).length + 2
  | .draining => (b.queued l.channel).length + 1
  | .returned => 0

theorem stage_of_left_eq_zero {l : Listener} {b : Broker} (h : l.left b = 0) :
    l.stage = .returned := by
  unfold left at h
  cases hs : l.stage with
  | returned => rfl
  | serving => simp [hs] at h
  | leaving => simp [hs] at h
  | draining => simp [hs] at h

theorem Act.left_le {l l' : Listener} {b b' : Broker} (h : Act true l b l' b') :
    l'.left b' ≤ l.left b - 1 := by
  cases h with
  | take payload hs hp =>
    have hq : ((b.pull l.channel).2.queued l.channel).length + 1 = (b.queued l.channel).length := by
      rw [Broker.queued_pull hp, List.length_cons]
    have hl : (l.handle payload).left (b.pull l.channel).2 = l.left (b.pull l.channel).2 := rfl
    rw [hl]
    unfold left
    rcases hs with hs | hs <;> rw [hs] <;> dsimp only <;> omega
  | wait _ _ hstop => cases hstop
  | leave hs _ =>
    unfold left
    rw [hs]
    exact Nat.le_refl _
  | close hs =>
    unfold left
    rw [hs]
    dsimp only
    rw [Broker.queued_closeChannel]
    exact Nat.le_refl _
  | finish _ _ => exact Nat.zero_le _
  | rest hs =>
    unfold left
    rw [hs]
    exact Nat.zero_le _

theorem stage_steps {n : Nat} {l : Listener} {b : Broker} (h : l.left b ≤ n) :
    (steps true n l b).1.stage = .returned := by
  induction n generalizing l b with
  | zero => exact stage_of_left_eq_zero (Nat.le_zero.1 h)
  | succ n ih =>
    show (steps true n (l.step true b).1 (l.step true b).2).1.stage = _
    have := (act_step true l b).left_le
    exact ih (by omega)

theorem pending_eq (l : Listener) (b : Broker) : l.pending b = (b.queued l.channel).length := by
  unfold pending Broker.queued
  cases b.channel? l.channel <;> rfl

theorem left_le (l : Listener) (b : Broker) : l.left b ≤ l.pending b + 3 := by
  rw [pending_eq]
  unfold left
  cases l.stage <;> dsimp only <;> omega

theorem steps_keep (stop : Bool) {l : Listener} {b : Broker} (h : l.Attends b) (n : Nat) :
    (steps stop n l b).1.Attends (steps stop n l b).2 ∧
      (steps stop n l b).1.stream (steps stop n l b).2 = l.stream b := by
  induction n generalizing l b with
  | zero => exact ⟨h, rfl⟩
  | succ n ih =>
    have hact := act_step stop l b
    obtain ⟨hattends, hstream⟩ := ih (hact.attends h)
    exact ⟨hattends, hstream.trans hact.stream_eq⟩

/-- what a listener that has returned has handled -/
theorem Attends.handled_eq {l : Listener} {b : Broker} (h : l.Attends b)
    (hs : l.stage = .returned) : l.handled = l.stream b := by
  unfold stream Broker.queued
  rw [h.gone hs, Option.map_none, Option.getD_none, List.append_nil]

/-- **A listener that is told to stop returns, and has handled all that waited for it.** -/
theorem settle_true {l : Listener} {b : Broker} (h : l.Attends b) :
    (l.settle true b).1.stage = .returned ∧ (l.settle true b).1.handled = l.stream b := by
  have hs := stage_steps (left_le l b)
  obtain ⟨hattends, hstream⟩ := steps_keep true h (l.pending b + 3)
  exact ⟨hs, (hattends.handled_eq hs).trans hstream⟩

/-! ## the part of the handler -/

/-- a listener without what its handler makes of messages -/
def face (l : Listener) : Nat × Stage × List Bytes := (l.channel, l.stage, l.handled)

theorem face_handle {l l' : Listener} (h : l.face = l'.face) (payload : Bytes) :
    (l.handle payload).face = (l'.handle payload).face := by
  unfold face at h ⊢
  simp only [Prod.mk.injEq] at h ⊢
  rw [handled_handle, handled_handle]
  exact ⟨h.1, h.2.1, by rw [h.2.2]⟩

theorem face_stage {l l' : Listener} (h : l.face = l'.face) (s : Stage) :
    face { l with stage := s } = face { l' with stage := s } := by
  unfold face at h ⊢
  simp only [Prod.mk.injEq] at h ⊢
  exact ⟨h.1, trivial, h.2.2⟩

/-- what the handler makes of messages has no part in what a listener does -/
theorem step_congr {l l' : Listener} (h : l.face = l'.face) (stop : Bool) (b : Broker) :
    (l.step stop b).1.face = (l'.step stop b).1.face ∧
      (l.step stop b).2 = (l'.step stop b).2 := by
  obtain ⟨channel, stage, handler, log⟩ := l
  obtain ⟨channel', stage', handler', log'⟩ := l'
  obtain rfl : channel = channel' := congrArg Prod.fst h
  obtain rfl : stage = stage' := congrArg (·.2.1) h
  unfold step
  dsimp only
  cases stage with
  | serving =>
    dsimp only
    obtain ⟨p, b'⟩ := b.pull channel
    cases p with
    | message payload => exact ⟨face_handle h payload, rfl⟩
    | ended => exact ⟨face_stage h .leaving, rfl⟩
    | empty =>
      cases stop with
      | true => exact ⟨face_stage h .leaving, rfl⟩
      | false => exact ⟨h, rfl⟩
  | leaving => exact ⟨face_stage h .draining, rfl⟩
  | draining =>
    dsimp only
    obtain ⟨p, b'⟩ := b.pull channel
    cases p with
    | message payload => exact ⟨face_handle h payload, rfl⟩
    | ended => exact ⟨face_stage h .returned, rfl⟩
    | empty => exact ⟨face_stage h .returned, rfl⟩
  | returned => exact ⟨h, rfl⟩

end Listener

end ForgeRelay
