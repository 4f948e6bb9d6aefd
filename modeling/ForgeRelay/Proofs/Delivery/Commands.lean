import ForgeRelay.Proofs.Delivery.Subscriptions

/-!
# Runs of a broker

A run carries out commands one after the other: each is over before the next one begins.
`Broker.run` is the broker at the end of a run, `Broker.replies` what the commands answered.
-/

namespace ForgeRelay

namespace Broker

inductive Command where
  | send (destination : Endpoint) (payload : Bytes)
  | subscribe (source : Endpoint)
  | receive (source : Endpoint)
  | closeTopic (topic : String)
  | backlogLength (topic : String)
  deriving DecidableEq, Repr

inductive Reply where
  | done
  | received (outcome : Except DeliveryFault Bytes)
  | length (n : Nat)

/-- whether the command puts a new channel under a name -/
def Command.renews (name : String) : Command → Bool
  | .subscribe source => source.name = name
  | _ => false

/-- whether the command is about another topic -/
def Command.isElsewhere (topic : String) : Command → Bool
  | .send destination _ => destination.topic ≠ topic
  | .subscribe source => source.topic ≠ topic
  | .closeTopic t => t ≠ topic
  | .backlogLength t => t ≠ topic
  | .receive _ => false

/-- the part of a run before a name is subscribed again -/
def Command.untilRenewed (name : String) (commands : List Command) : List Command :=
  commands.takeWhile fun c => !c.renews name

/-- the part of a run before a topic is closed -/
def Command.untilClosed (topic : String) (commands : List Command) : List Command :=
  commands.takeWhile (· ≠ .closeTopic topic)

/-- a run without the commands about other topics -/
def Command.about (topic : String) (commands : List Command) : List Command :=
  commands.filter fun c => !c.isElsewhere topic

/-- the payloads that commands send to a topic -/
def Command.sentTo (topic : String) (commands : List Command) : List Bytes :=
  commands.filterMap fun
    | .send destination payload => if destination.topic = topic then some payload else none
    | _ => none

/-- the payloads that receives for a source returned -/
def Reply.taken (name : String) (log : List (Command × Reply)) : List Bytes :=
  log.filterMap fun
    | (.receive source, .received (.ok payload)) =>
      if source.name = name then some payload else none
    | _ => none

def perform (b : Broker) : Command → Reply × Broker
  | .send destination payload => (.done, b.send destination.topic payload)
  | .subscribe source => (.done, b.subscribe source)
  | .receive source => (.received (b.receive source.name).1, (b.receive source.name).2)
  | .closeTopic topic => (.done, b.closeTopic topic)
  | .backlogLength topic => (.length (b.backlogLength topic), b)

def run (b : Broker) (commands : List Command) : Broker :=
  commands.foldl (fun b c => (b.perform c).2) b

/-- the commands with what each of them answered -/
def replies (b : Broker) : List Command → List (Command × Reply)
  | [] => []
  | c :: cs => (c, (b.perform c).1) :: (b.perform c).2.replies cs

theorem run_cons (b : Broker) (c : Command) (cs : List Command) :
    b.run (c :: cs) = (b.perform c).2.run cs := rfl
theorem replies_cons (b : Broker) (c : Command) (cs : List Command) :
    b.replies (c :: cs) = (c, (b.perform c).1) :: (b.perform c).2.replies cs := rfl

/-! ## what every command keeps -/

theorem Sound.perform {b : Broker} (h : b.Sound) (c : Command) : (b.perform c).2.Sound := by
  cases c with
  | send destination payload => exact h.send destination.topic payload
  | subscribe source => exact h.subscribe source
  | receive source => exact h.receive source.name
  | closeTopic topic => exact h.closeTopic topic
  | backlogLength _ => exact h

theorem Sound.run {b : Broker} (h : b.Sound) (cs : List Command) : (b.run cs).Sound := by
  induction cs generalizing b with
  | nil => exact h
  | cons c cs ih => exact ih (h.perform c)

theorem provider_dropUnheld (b : Broker) (i : Nat) : (b.dropUnheld i).provider = b.provider := by
  unfold dropUnheld
  split <;> rfl

theorem provider_pull (b : Broker) (i : Nat) : (b.pull i).2.provider = b.provider := by
  unfold pull
  split
  · rfl
  · split <;> rfl

theorem provider_subscribe (b : Broker) (source : Endpoint) :
    (b.subscribe source).provider = b.provider := by
  rw [subscribe_eq]
  split
  · rfl
  · exact provider_dropUnheld _ _

theorem provider_perform (b : Broker) (c : Command) : (b.perform c).2.provider = b.provider := by
  cases c with
  | send destination payload =>
    show (b.send destination.topic payload).provider = _
    unfold send
    split <;> rfl
  | subscribe source => exact provider_subscribe b source
  | receive source =>
    show (b.receive source.name).2.provider = _
    rw [receive_snd]
    split
    · rfl
    · exact provider_pull b _
  | closeTopic _ => rfl
  | backlogLength _ => rfl

theorem provider_run (b : Broker) (cs : List Command) : (b.run cs).provider = b.provider := by
  induction cs generalizing b with
  | nil => rfl
  | cons c cs ih => rw [run_cons, ih, provider_perform]

/-! ## who is subscribed -/

theorem subscription?_perform {b : Broker} (h : b.Sound) (name : String) (c : Command) :
    ((b.perform c).2.subscription? name).isSome =
      (c.renews name || (b.subscription? name).isSome) := by
  cases c with
  | send destination payload =>
    show ((b.send destination.topic payload).subscription? name).isSome = _
    rw [subscription?_send, Option.isSome_map]
    rfl
  | subscribe source =>
    show ((b.subscribe source).subscription? name).isSome = (decide (source.name = name) || _)
    rw [h.subscription?_subscribe]
    by_cases hn : source.name = name
    · rw [if_pos hn, decide_eq_true hn, Bool.true_or]
      rfl
    · rw [if_neg hn, decide_eq_false hn, Bool.false_or]
  | receive source =>
    show ((b.receive source.name).2.subscription? name).isSome = _
    rw [h.subscription?_receive]
    split
    · rw [Option.isSome_map]
      rfl
    · rfl
  | closeTopic topic =>
    show ((b.closeTopic topic).subscription? name).isSome = _
    rw [subscription?_closeTopic, Option.isSome_map]
    rfl
  | backlogLength _ => rfl

/-- a source has a channel once it was subscribed, and keeps having one -/
theorem isSome_subscription?_run {b : Broker} (h : b.Sound) (name : String) (cs : List Command) :
    ((b.run cs).subscription? name).isSome =
      (cs.any (·.renews name) || (b.subscription? name).isSome) := by
  induction cs generalizing b with
  | nil => rfl
  | cons c cs ih =>
    rw [run_cons, ih (h.perform c), subscription?_perform h, List.any_cons, ← Bool.or_assoc,
      Bool.or_comm (cs.any _)]

end Broker

end ForgeRelay
