import ForgeRelay.Proofs.Delivery.Lifetimes
import Mathlib.Data.List.Induction

/-!
# The backlog of a topic

What is sent to a topic goes to the channels that hear it, and waits in its backlog while there are
none.

* `Timeline.waiting_move`    what a move makes of a backlog;
* `Timeline.UnheardSince`    a cut of a history at the moment since which a topic is not heard;
* `Timeline.backlog_exact`   at all times a topic that is heard has no backlog, and the backlog of
                             one that is not has the latest messages sent to it since that moment.
-/

namespace ForgeRelay

namespace Broker

theorem keepLast_suffix (limit : Nat) (messages : List Bytes) :
    keepLast limit messages <:+ messages := List.drop_suffix _ _

theorem length_keepLast (limit : Nat) (messages : List Bytes) :
    (keepLast limit messages).length = min limit messages.length := by
  unfold keepLast
  rw [List.length_drop]
  omega

theorem keepLast_nil (limit : Nat) : keepLast limit [] = [] :=
  keepLast_of_length_le (Nat.zero_le limit)

theorem keepLast_append_singleton {limit : Nat} (h : 1 ≤ limit) (old : List Bytes)
    (payload : Bytes) :
    keepLast limit (old ++ [payload]) = keepLast (limit - 1) old ++ [payload] := by
  unfold keepLast
  rw [List.length_append, List.length_singleton, List.drop_append_of_le_length (by omega)]
  congr 2
  omega

end Broker

namespace Timeline

/-! ## one move -/

/-- what a move that opens no channel on a topic makes of its backlog -/
theorem waiting_move {t : Timeline} {topic : String} {m : Move} (hm : m.opens topic = false)
    (hlen : (t.broker.waiting topic).length ≤ t.broker.limit) :
    (t.move m).broker.waiting topic =
      if t.broker.isHeard topic then t.broker.waiting topic
      else Broker.keepLast t.broker.limit (t.broker.waiting topic ++ m.sentTo topic) := by
  have hquiet : m.sentTo topic = [] → (t.move m).broker.waiting topic = t.broker.waiting topic →
      (t.move m).broker.waiting topic = if t.broker.isHeard topic then t.broker.waiting topic
        else Broker.keepLast t.broker.limit (t.broker.waiting topic ++ m.sentTo topic) := by
    intro hs hw
    rw [hw, hs, List.append_nil, Broker.keepLast_of_length_le hlen, ite_self]
  cases m with
  | send topic' payload =>
    by_cases ht : topic' = topic
    · subst ht
      refine (t.broker.waiting_send topic' topic' payload).trans ?_
      cases hh : t.broker.isHeard topic' <;> simp [Move.sentTo]
    · refine hquiet (if_neg ht) ((t.broker.waiting_send topic' topic payload).trans (if_neg ?_))
      exact fun h => ht h.2.symm
  | subscribe source =>
    have hne : topic ≠ source.topic := fun e => by simp [Move.opens, e] at hm
    refine hquiet rfl (((t.broker.within_subscribe source).waiting_eq topic).trans ?_)
    rw [Broker.waiting_attach, if_neg hne]
  | listen topic' signal handler =>
    have hne : topic ≠ topic' := fun e => by simp [Move.opens, e] at hm
    refine hquiet rfl ((t.broker.waiting_attach topic' topic).trans (if_neg hne))
  | _ => exact hquiet rfl ((within_move t rfl).waiting_eq topic)

theorem waiting_of_opens (t : Timeline) {topic : String} {m : Move} (hm : m.opens topic = true) :
    (t.move m).broker.waiting topic = [] := by
  cases m with
  | subscribe source =>
    have ht : topic = source.topic := by simpa [Move.opens, eq_comm] using hm
    refine ((t.broker.within_subscribe source).waiting_eq topic).trans ?_
    rw [Broker.waiting_attach, if_pos ht]
  | listen topic' signal handler =>
    have ht : topic = topic' := by simpa [Move.opens, eq_comm] using hm
    exact (t.broker.waiting_attach topic' topic).trans (if_pos ht)
  | _ => cases hm

/-! ## runs -/

/-- the backlog of a topic is within the limit, and there is none while the topic is heard -/
structure Stocked (t : Timeline) (topic : String) : Prop where
  length_le : (t.broker.waiting topic).length ≤ t.broker.limit
  eq_nil : t.broker.isHeard topic = true → t.broker.waiting topic = []

theorem stocked_start (limit : Nat) (provider : Provider) (topic : String) :
    (start (.withLimit limit provider)).Stocked topic := ⟨Nat.zero_le _, fun _ => rfl⟩

theorem Stocked.move {t : Timeline} {topic : String} (h : t.Stocked topic) (m : Move) :
    (t.move m).Stocked topic := by
  cases hm : m.opens topic with
  | true =>
    have hw := waiting_of_opens t hm
    exact ⟨by rw [hw]; exact Nat.zero_le _, fun _ => hw⟩
  | false =>
    have hw := waiting_move hm h.length_le
    refine ⟨?_, fun hheard => ?_⟩
    · rw [hw, limit_move]
      split
      · exact h.length_le
      · exact Broker.length_keepLast_le _ _
    · have hbefore := isHeard_of_move hm hheard
      rw [hw, if_pos hbefore, h.eq_nil hbefore]

theorem Stocked.run {t : Timeline} {topic : String} (h : t.Stocked topic) (ms : List Move) :
    (t.run ms).Stocked topic := by
  induction ms generalizing t with
  | nil => exact h
  | cons m ms ih => exact ih (h.move m)

/-- while a topic is heard nothing comes to its backlog -/
theorem waiting_run_of_heard {t : Timeline} {topic : String} (hs : t.Stocked topic)
    {ms : List Move} (hopens : ∀ m ∈ ms, m.opens topic = false)
    (hheard : t.Throughout ms fun u => u.broker.isHeard topic = true) :
    (t.run ms).broker.waiting topic = t.broker.waiting topic := by
  induction ms generalizing t with
  | nil => rfl
  | cons m ms ih =>
    obtain ⟨ht, hrest⟩ := throughout_cons.1 hheard
    obtain ⟨hm, hms⟩ := List.forall_mem_cons.1 hopens
    have hw := waiting_move hm hs.length_le
    rw [if_pos ht] at hw
    exact (ih (hs.move m) hms hrest).trans hw

/-- while it is not, all goes there -/
theorem waiting_run_of_unheard {t : Timeline} {topic : String} (hs : t.Stocked topic)
    {ms : List Move} (hopens : ∀ m ∈ ms, m.opens topic = false)
    (hheard : t.Throughout ms fun u => u.broker.isHeard topic = false) :
    (t.run ms).broker.waiting topic =
      Broker.keepLast t.broker.limit (t.broker.waiting topic ++ sentTo topic ms) := by
  induction ms generalizing t with
  | nil => rw [sentTo_nil, List.append_nil, Broker.keepLast_of_length_le hs.length_le, run_nil]
  | cons m ms ih =>
    obtain ⟨ht, hrest⟩ := throughout_cons.1 hheard
    obtain ⟨hm, hms⟩ := List.forall_mem_cons.1 hopens
    have hw := waiting_move hm hs.length_le
    rw [ht, if_neg Bool.false_ne_true] at hw
    rw [run_cons, ih (hs.move m) hms hrest, hw, limit_move, Broker.keepLast_keepLast_append,
      List.append_assoc, sentTo_cons]

/-- a topic is not heard since a point of a run, which is its beginning or where its last receiver
went -/
structure UnheardSince (t : Timeline) (topic : String) (before after : List Move) : Prop where
  silent : ∀ ms rest, after = ms ++ rest → (t.run (before ++ ms)).broker.isHeard topic = false
  cut : before = [] ∨ ∃ earlier m, before = earlier ++ [m] ∧
    (t.run earlier).broker.isHeard topic = true

theorem UnheardSince.append_singleton {t : Timeline} {topic : String} {before after : List Move}
    {m : Move} (h : t.UnheardSince topic before after)
    (hm : (t.run (before ++ after ++ [m])).broker.isHeard topic = false) :
    t.UnheardSince topic before (after ++ [m]) := by
  refine ⟨fun ms rest he => ?_, h.cut⟩
  rcases List.eq_nil_or_concat rest with rfl | ⟨rest, last, rfl⟩
  · rw [List.append_nil] at he
    rw [← he, ← List.append_assoc]
    exact hm
  · rw [List.concat_eq_append, ← List.append_assoc] at he
    exact h.silent ms rest (List.append_inj_left' he rfl)

theorem unheardSince_self {t : Timeline} {topic : String} {before : List Move}
    (hcut : before = [] ∨ ∃ earlier m, before = earlier ++ [m] ∧
      (t.run earlier).broker.isHeard topic = true)
    (h : (t.run before).broker.isHeard topic = false) : t.UnheardSince topic before [] := by
  refine ⟨fun ms rest he => ?_, hcut⟩
  obtain ⟨rfl, -⟩ := List.append_eq_nil_iff.1 he.symm
  rwa [List.append_nil]

/-- what was sent since a topic is not heard is what its backlog is made of -/
theorem waiting_eq_keepLast {t : Timeline} (h : t.Sound) {topic : String} (hs : t.Stocked topic)
    (hempty : t.broker.waiting topic = []) (ms : List Move)
    (hheard : (t.run ms).broker.isHeard topic = false) :
    ∃ before after, ms = before ++ after ∧ t.UnheardSince topic before after ∧
      (t.run ms).broker.waiting topic = Broker.keepLast t.broker.limit (sentTo topic after) := by
  induction ms using List.reverseRecOn with
  | nil =>
    refine ⟨[], [], rfl, unheardSince_self (.inl rfl) hheard, ?_⟩
    rw [sentTo_nil, Broker.keepLast_nil]
    exact hempty
  | append_singleton ms m ih =>
    have hrun : t.run (ms ++ [m]) = (t.run ms).move m := run_append t ms [m]
    have hopens : m.opens topic = false := Bool.eq_false_iff.2 fun hm => by
      rw [hrun, (h.run ms).isHeard_of_opens hm] at hheard
      cases hheard
    have hw := waiting_move hopens (hs.run ms).length_le
    rw [← hrun, limit_run] at hw
    cases hbefore : (t.run ms).broker.isHeard topic with
    | true =>
      -- the last receiver goes now
      refine ⟨ms ++ [m], [], (List.append_nil _).symm,
        unheardSince_self (.inr ⟨ms, m, rfl, hbefore⟩) hheard, ?_⟩
      rw [hw, if_pos hbefore, sentTo_nil, Broker.keepLast_nil]
      exact (hs.run ms).eq_nil hbefore
    | false =>
      obtain ⟨before, after, rfl, hsince, hwaiting⟩ := ih hbefore
      refine ⟨before, after ++ [m], List.append_assoc .., hsince.append_singleton hheard, ?_⟩
      rw [hw, if_neg (Bool.eq_false_iff.1 hbefore), hwaiting, Broker.keepLast_keepLast_append,
        sentTo_append, sentTo_cons, sentTo_nil, List.append_nil]

/-- **The backlog of a topic is bounded, it is empty while the topic is heard, and else it has the
latest messages sent since the last receiver went.**  A topic is heard as long as a receiver lives
that some move opened on it. -/
theorem backlog_exact (limit : Nat) (provider : Provider) (moves : List Move) (topic : String) :
    let t := start (.withLimit limit provider)
    let b := (t.run moves).broker
    b.backlogLength topic ≤ limit ∧
      (b.isHeard topic = true ↔ ∃ id, t.Live topic id moves) ∧
      (b.isHeard topic = true → b.waiting topic = []) ∧
      (b.isHeard topic = false → ∃ before after, moves = before ++ after ∧
        t.UnheardSince topic before after ∧
        b.waiting topic <:+ sentTo topic after ∧
        (b.waiting topic).length = min limit (sentTo topic after).length) := by
  intro t b
  have hstocked := (stocked_start limit provider topic).run moves
  refine ⟨?_, isHeard_run_start limit provider moves topic, hstocked.eq_nil, fun hheard => ?_⟩
  · have hle := hstocked.length_le
    rwa [limit_run] at hle
  · obtain ⟨before, after, hmoves, hsince, hwaiting⟩ := waiting_eq_keepLast
      (sound_start limit provider) (stocked_start limit provider topic) rfl moves hheard
    refine ⟨before, after, hmoves, hsince, ?_, ?_⟩
    · exact hwaiting ▸ Broker.keepLast_suffix _ _
    · exact hwaiting ▸ Broker.length_keepLast _ _

end Timeline

end ForgeRelay
