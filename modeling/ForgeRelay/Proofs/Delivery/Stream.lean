import ForgeRelay.Proofs.Delivery.Commands
import Mathlib.Data.List.TakeWhile

/-!
# The stream of a subscription

A subscription has one stream of messages: the backlog of its topic when it began, and then what is
sent to the topic until the topic is closed.  What was received and what still waits make up this
stream at all times, whatever else the broker does (`subscription_stream`).

A single channel is followed first (`Channel.follow`), apart from any broker; then the channel of a
source is shown to be followed by every run in which the source is not subscribed again.
-/

namespace ForgeRelay

open Broker (Command Reply)

namespace Channel

/-! ## following one channel -/

/-- what a command makes of the channel of a source -/
def follow (name : String) (c : Channel) : Command → Channel
  | .send destination payload => c.offer destination.topic payload
  | .receive source => if source.name = name then c.advance else c
  | .closeTopic topic => c.closeOn topic
  | .subscribe _ => c
  | .backlogLength _ => c

def followAll (name : String) (c : Channel) (commands : List Command) : Channel :=
  commands.foldl (follow name) c

/-- what a command takes from the channel of a source -/
def givenBy (name : String) (c : Channel) : Command → List Bytes
  | .receive source => if source.name = name then c.queue.head?.toList else []
  | _ => []

def given (name : String) (c : Channel) : List Command → List Bytes
  | [] => []
  | cmd :: cmds => c.givenBy name cmd ++ given name (c.follow name cmd) cmds

theorem followAll_cons (name : String) (c : Channel) (cmd : Command) (cmds : List Command) :
    c.followAll name (cmd :: cmds) = (c.follow name cmd).followAll name cmds := rfl
theorem given_cons (name : String) (c : Channel) (cmd : Command) (cmds : List Command) :
    c.given name (cmd :: cmds) = c.givenBy name cmd ++ (c.follow name cmd).given name cmds := rfl

theorem follow_receive (name : String) (c : Channel) (source : Endpoint) :
    c.follow name (.receive source) = if source.name = name then c.advance else c := rfl
theorem givenBy_receive (name : String) (c : Channel) (source : Endpoint) :
    c.givenBy name (.receive source) =
      if source.name = name then c.queue.head?.toList else [] := rfl

theorem topic_follow (name : String) (c : Channel) (cmd : Command) :
    (c.follow name cmd).topic = c.topic := by
  cases cmd with
  | send _ _ => exact topic_offer ..
  | subscribe _ => rfl
  | receive _ =>
    rw [follow_receive]
    split <;> rfl
  | closeTopic _ => exact topic_closeOn ..
  | backlogLength _ => rfl

theorem id_follow (name : String) (c : Channel) (cmd : Command) :
    (c.follow name cmd).id = c.id := by
  cases cmd with
  | send _ _ => exact id_offer ..
  | subscribe _ => rfl
  | receive _ =>
    rw [follow_receive]
    split <;> rfl
  | closeTopic _ => exact id_closeOn ..
  | backlogLength _ => rfl

theorem id_followAll (name : String) (c : Channel) (cmds : List Command) :
    (c.followAll name cmds).id = c.id := by
  induction cmds generalizing c with
  | nil => rfl
  | cons cmd cmds ih => rw [followAll_cons, ih, id_follow]

/-- only closing its topic ends a channel -/
theorem fed_follow (name : String) (c : Channel) (cmd : Command) :
    (c.follow name cmd).fed = (c.fed && decide (cmd ≠ .closeTopic c.topic)) := by
  cases cmd with
  | closeTopic topic =>
    show (c.closeOn topic).fed = _
    unfold closeOn
    by_cases h : c.topic = topic
    · rw [if_pos h, h]
      simp [close]
    · rw [if_neg h]
      simp [Ne.symm h]
  | send _ _ =>
    show (c.offer _ _).fed = _
    rw [fed_offer]
    simp
  | receive _ =>
    rw [follow_receive]
    split <;> simp [advance]
  | subscribe _ => simp [follow]
  | backlogLength _ => simp [follow]

theorem fed_followAll (name : String) (c : Channel) (cmds : List Command) :
    (c.followAll name cmds).fed = (c.fed && decide (.closeTopic c.topic ∉ cmds)) := by
  induction cmds generalizing c with
  | nil => simp [followAll]
  | cons cmd cmds ih =>
    rw [followAll_cons, ih, fed_follow, topic_follow, Bool.and_assoc]
    congr 1
    by_cases h : cmd = .closeTopic c.topic
    · simp [h]
    · simp [h, Ne.symm h]

/-- one command moves nothing from its place: what it takes was first, what it adds is last -/
theorem givenBy_append_queue (name : String) (c : Channel) (cmd : Command) :
    c.givenBy name cmd ++ (c.follow name cmd).queue =
      c.queue ++ (if c.fed then Command.sentTo c.topic [cmd] else []) := by
  cases cmd with
  | send destination payload =>
    show (c.offer destination.topic payload).queue = _
    unfold offer hears
    by_cases hf : c.fed
    · by_cases ht : c.topic = destination.topic
      · simp [hf, ht, Command.sentTo]
      · simp [hf, ht, Ne.symm ht, Command.sentTo]
    · simp [hf]
  | receive source =>
    rw [givenBy_receive, follow_receive]
    by_cases hn : source.name = name
    · rw [if_pos hn, if_pos hn]
      cases hq : c.queue <;> simp [advance, hq, Command.sentTo]
    · rw [if_neg hn, if_neg hn]
      simp [Command.sentTo]
  | closeTopic topic => simp [givenBy, follow, Command.sentTo]
  | subscribe _ => simp [givenBy, follow, Command.sentTo]
  | backlogLength _ => simp [givenBy, follow, Command.sentTo]

/-- what was taken from a channel, with what is in it, is what was in it and what came in while it
was fed -/
theorem given_append_queue (name : String) (c : Channel) (cmds : List Command) :
    c.given name cmds ++ (c.followAll name cmds).queue =
      c.queue ++ (if c.fed then Command.sentTo c.topic (Command.untilClosed c.topic cmds)
        else []) := by
  induction cmds generalizing c with
  | nil => simp [given, followAll, Command.untilClosed, Command.sentTo]
  | cons cmd cmds ih =>
    rw [given_cons, followAll_cons, List.append_assoc, ih, ← List.append_assoc,
      givenBy_append_queue, topic_follow, fed_follow, List.append_assoc]
    congr 1
    by_cases hc : cmd = .closeTopic c.topic
    · simp [hc, Command.untilClosed, Command.sentTo]
    · have hcons : Command.untilClosed c.topic (cmd :: cmds) =
          cmd :: Command.untilClosed c.topic cmds := by
        simp [Command.untilClosed, hc]
      rw [hcons]
      by_cases hf : c.fed
      · simp only [hf, if_true, Bool.true_and, decide_eq_true hc]
        exact (List.filterMap_append (l := [cmd])).symm
      · simp [hf]

/-! ## commands about other topics -/

theorem follow_elsewhere {c : Channel} {cmd : Command} (h : cmd.isElsewhere c.topic = true)
    (name : String) : c.follow name cmd = c ∧ c.givenBy name cmd = [] := by
  cases cmd with
  | send destination payload =>
    have hne : destination.topic ≠ c.topic := by simpa [Command.isElsewhere] using h
    exact ⟨offer_of_not_hears (by simp [hears, Ne.symm hne]) payload, rfl⟩
  | closeTopic topic =>
    have hne : topic ≠ c.topic := by simpa [Command.isElsewhere] using h
    exact ⟨if_neg (Ne.symm hne), rfl⟩
  | receive _ => cases h
  | subscribe _ => exact ⟨rfl, rfl⟩
  | backlogLength _ => exact ⟨rfl, rfl⟩

/-- commands about other topics can be left out -/
theorem followAll_about (name : String) (c : Channel) (cmds : List Command) :
    c.followAll name (Command.about c.topic cmds) = c.followAll name cmds ∧
      c.given name (Command.about c.topic cmds) = c.given name cmds := by
  unfold Command.about
  induction cmds generalizing c with
  | nil => exact ⟨rfl, rfl⟩
  | cons cmd cmds ih =>
    by_cases h : cmd.isElsewhere c.topic
    · obtain ⟨hfollow, hgiven⟩ := follow_elsewhere h name
      rw [List.filter_cons_of_neg (by simp [h]), followAll_cons, given_cons, hfollow, hgiven]
      exact ih c
    · have ih' := ih (c.follow name cmd)
      rw [topic_follow] at ih'
      rw [List.filter_cons_of_pos (by simp [h]), followAll_cons, followAll_cons, given_cons,
        given_cons, ih'.1, ih'.2]
      exact ⟨rfl, rfl⟩

end Channel

namespace Broker

/-! ## the channel of a source along a run -/

theorem subscription?_perform_of_not_renews {b : Broker} (h : b.Sound) {name : String}
    {cmd : Command} (hr : cmd.renews name = false) :
    (b.perform cmd).2.subscription? name = (b.subscription? name).map (·.follow name cmd) := by
  cases cmd with
  | send destination payload => exact subscription?_send b destination.topic payload name
  | subscribe source =>
    have hne : source.name ≠ name := by simpa [Command.renews] using hr
    show (b.subscribe source).subscription? name = _
    rw [h.subscription?_subscribe, if_neg hne]
    exact Option.map_id'.symm
  | receive source =>
    show (b.receive source.name).2.subscription? name = _
    rw [h.subscription?_receive]
    by_cases hn : source.name = name
    · rw [if_pos hn]
      simp only [Channel.follow, hn, if_true]
    · rw [if_neg hn]
      simp only [Channel.follow, hn, if_false, Option.map_id']
  | closeTopic topic => exact subscription?_closeTopic b topic name
  | backlogLength _ => exact Option.map_id'.symm

theorem subscription?_run {b : Broker} (h : b.Sound) {name : String} {cmds : List Command}
    (hr : ∀ cmd ∈ cmds, cmd.renews name = false) {c : Channel}
    (hc : b.subscription? name = some c) :
    (b.run cmds).subscription? name = some (c.followAll name cmds) := by
  induction cmds generalizing b c with
  | nil => exact hc
  | cons cmd cmds ih =>
    rw [run_cons, Channel.followAll_cons]
    refine ih (h.perform cmd) (fun d hd => hr d (List.mem_cons_of_mem _ hd)) ?_
    rw [subscription?_perform_of_not_renews h (hr cmd (List.mem_cons_self ..)), hc]
    rfl

/-- one command of a run returns to a source what is first on its channel -/
theorem taken_singleton {b : Broker} (h : b.Sound) {name : String} {c : Channel}
    (hc : b.subscription? name = some c) (cmd : Command) :
    Reply.taken name [(cmd, (b.perform cmd).1)] = c.givenBy name cmd := by
  cases cmd with
  | receive source =>
    show Reply.taken name [(.receive source, .received (b.receive source.name).1)] = _
    by_cases hn : source.name = name
    · rw [hn, h.receive_fst, hc]
      simp only [Channel.givenBy, hn, if_true, Channel.front]
      cases c.queue with
      | cons payload rest => simp [Reply.taken, Pull.received, hn]
      | nil =>
        by_cases hf : c.fed <;> simp [Reply.taken, Pull.received, hf]
    · simp only [Channel.givenBy, hn, if_false]
      cases (b.receive source.name).1 <;> simp [Reply.taken, hn]
  | send _ _ => rfl
  | subscribe _ => rfl
  | closeTopic _ => rfl
  | backlogLength _ => rfl

theorem taken_replies {b : Broker} (h : b.Sound) {name : String} {cmds : List Command}
    (hr : ∀ cmd ∈ cmds, cmd.renews name = false) {c : Channel}
    (hc : b.subscription? name = some c) :
    Reply.taken name (b.replies cmds) = c.given name cmds := by
  induction cmds generalizing b c with
  | nil => rfl
  | cons cmd cmds ih =>
    have hfollow : (b.perform cmd).2.subscription? name = some (c.follow name cmd) := by
      rw [subscription?_perform_of_not_renews h (hr cmd (List.mem_cons_self ..)), hc]
      rfl
    have hrest := ih (h.perform cmd) (fun d hd => hr d (List.mem_cons_of_mem _ hd)) hfollow
    rw [Channel.given_cons, ← hrest, ← taken_singleton h hc cmd, replies_cons]
    exact List.filterMap_append (l := [(cmd, (b.perform cmd).1)])

/-! ## the stream -/

/-- a source has no channel exactly if it was never subscribed -/
theorem receive_eq_notSubscribed {b : Broker} (h : b.Sound) (name : String) :
    (b.receive name).1 = .error (.notSubscribed name) ↔ b.subscription? name = none := by
  rw [h.receive_fst]
  cases b.subscription? name with
  | none => simp
  | some c =>
    have hother : c.front.received b.provider.timeout name ≠ .error (.notSubscribed name) := by
      cases c.front <;> simp [Pull.received, closedFault]
    simp [hother]

theorem never_subscribed {b : Broker} (h : b.Sound) {name : String}
    (hnone : b.subscription? name = none) (cmds : List Command) :
    (b.run cmds).subscription? name = none ↔ ∀ cmd ∈ cmds, cmd.renews name = false := by
  rw [← Option.not_isSome_iff_eq_none, isSome_subscription?_run h, hnone]
  simp

theorem not_renews_of_mem_untilRenewed {name : String} {cmds : List Command} :
    ∀ cmd ∈ Command.untilRenewed name cmds, cmd.renews name = false := by
  intro cmd hcmd
  have := List.mem_takeWhile_imp hcmd
  simpa using this

/-- **Every subscription has one stream.**  Let a run subscribe a source, and take the part of it
until the source is subscribed again.  What the source received in this part, with what waits on its
channel, is the backlog of the topic at the start and then what was sent to the topic until it was
closed.  A receive gives the next message of this stream; if there is none it finds the channel
ended if the topic was closed, else its window passes.  Commands about other topics change nothing,
and a source is not subscribed only if no command of a run subscribed it. -/
theorem subscription_stream (limit : Nat) (provider : Provider) (before after : List Command)
    (source : Endpoint) :
    let start := (withLimit limit provider).run before
    let opened := (start.perform (.subscribe source)).2
    let life := Command.untilRenewed source.name after
    let quiet := Command.about source.topic life
    let received := Reply.taken source.name (opened.replies life)
    let stream := start.waiting source.topic ++
      Command.sentTo source.topic (Command.untilClosed source.topic life)
    (∃ channel, (opened.run life).subscription? source.name = some channel ∧
      channel.id = start.next ∧ received ++ channel.queue = stream) ∧
    ((opened.run life).receive source.name).1 = (match stream.drop received.length with
      | payload :: _ => .ok payload
      | [] =>
        if .closeTopic source.topic ∈ life then .error (closedFault source.name)
        else .error (.timeout provider.timeout)) ∧
    (Reply.taken source.name (opened.replies quiet) = received ∧
      (opened.run quiet).subscription? source.name =
        (opened.run life).subscription? source.name) ∧
    ∀ name, (start.receive name).1 = .error (.notSubscribed name) ↔
      ∀ cmd ∈ before, cmd.renews name = false := by
  intro start opened life quiet received stream
  have hnew := sound_withLimit limit provider
  have hstart : start.Sound := hnew.run before
  have hopened : opened.Sound := hstart.perform (.subscribe source)
  let fresh : Channel := Channel.mk start.next source.topic (start.waiting source.topic) true
  have hfresh : opened.subscription? source.name = some fresh := by
    show (start.subscribe source).subscription? source.name = _
    rw [hstart.subscription?_subscribe, if_pos rfl]
  have hlife : ∀ cmd ∈ life, cmd.renews source.name = false := not_renews_of_mem_untilRenewed
  have hquiet : ∀ cmd ∈ quiet, cmd.renews source.name = false := fun cmd hcmd =>
    hlife cmd (List.mem_filter.1 hcmd).1
  have hnow := subscription?_run hopened hlife hfresh
  have hreceived : received = fresh.given source.name life := taken_replies hopened hlife hfresh
  have hstream : received ++ (fresh.followAll source.name life).queue = stream := by
    rw [hreceived, Channel.given_append_queue]
    rfl
  have hrest : stream.drop received.length = (fresh.followAll source.name life).queue := by
    rw [← hstream, List.drop_left]
  have hprovider : (opened.run life).provider = provider := by
    rw [provider_run, provider_perform, provider_run]
    rfl
  refine ⟨⟨_, hnow, Channel.id_followAll .., hstream⟩, ?_, ⟨?_, ?_⟩, fun name => ?_⟩
  · rw [(hopened.run life).receive_fst, hnow, hrest, hprovider]
    show (Channel.front _).received provider.timeout source.name = _
    unfold Channel.front
    cases (fresh.followAll source.name life).queue with
    | cons payload rest => rfl
    | nil =>
      show Pull.received _ _ (if _ then _ else _) = _
      rw [Channel.fed_followAll]
      by_cases hclosed : Command.closeTopic source.topic ∈ life <;>
        simp [fresh, hclosed, Pull.received]
  · rw [hreceived, taken_replies hopened hquiet hfresh]
    exact (Channel.followAll_about source.name fresh life).2
  · rw [hnow, subscription?_run hopened hquiet hfresh]
    exact congrArg some (Channel.followAll_about source.name fresh life).1
  · rw [receive_eq_notSubscribed hstart]
    exact never_subscribed hnew rfl before

end Broker

end ForgeRelay
