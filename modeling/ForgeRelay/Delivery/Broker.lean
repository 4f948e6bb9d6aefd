import ForgeRelay.Bytes
import ForgeRelay.Delivery.Topology

/-!
# The loopback broker

A broker within the process.  Each receiver has a channel of its own, in which the messages for it
wait; a message is put into all channels that its topic feeds.  If there are none it goes to the
backlog of the topic, which keeps the latest messages up to a limit and is handed to the next
channel on the topic.

`subscribe` keeps a channel under the name of a source, and `receive` takes from it.  A channel that
loses its name to a later subscription is dropped, unless a receive still waits on it.
-/

namespace ForgeRelay

structure Channel where
  id : Nat
  topic : String
  queue : List Bytes
  /-- whether messages for the topic still come in -/
  fed : Bool
  deriving DecidableEq, Repr

structure Broker where
  provider : Provider
  /-- how many messages are kept for a topic without a receiver -/
  limit : Nat
  backlog : List (String × List Bytes)
  channels : List Channel
  /-- the channel of each source -/
  subscriptions : List (String × Nat)
  /-- channels on which a receive waits -/
  awaited : List Nat
  /-- the id of the next channel -/
  next : Nat
  deriving DecidableEq, Repr

namespace Channel

def hears (topic : String) (c : Channel) : Bool := c.fed && c.topic = topic

def offer (topic : String) (payload : Bytes) (c : Channel) : Channel :=
  if c.hears topic then { c with queue := c.queue ++ [payload] } else c

def close (c : Channel) : Channel := { c with fed := false }

end Channel

namespace Broker

def defaultLimit : Nat := 1024

def withLimit (limit : Nat) (provider : Provider) : Broker :=
  ⟨provider, limit, [], [], [], [], 0⟩

def new (provider : Provider) : Broker := withLimit defaultLimit provider

/-! ## sending -/

/-- the messages that wait for a receiver on the topic -/
def waiting (b : Broker) (topic : String) : List Bytes := (Keyed.lookup topic b.backlog).getD []

def backlogLength (b : Broker) (topic : String) : Nat := (b.waiting topic).length

/-- whether some receiver is fed by the topic -/
def isHeard (b : Broker) (topic : String) : Bool := b.channels.any (·.hears topic)

/-- the last `limit` messages -/
def keepLast (limit : Nat) (messages : List Bytes) : List Bytes :=
  messages.drop (messages.length - limit)

def send (b : Broker) (topic : String) (payload : Bytes) : Broker :=
  if b.isHeard topic then { b with channels := b.channels.map (·.offer topic payload) }
  else
    let kept := keepLast b.limit (b.waiting topic ++ [payload])
    { b with backlog := Keyed.put topic kept b.backlog }

theorem length_keepLast_le (limit : Nat) (messages : List Bytes) :
    (keepLast limit messages).length ≤ limit := by
  unfold keepLast
  rw [List.length_drop]
  omega

theorem keepLast_of_length_le {limit : Nat} {messages : List Bytes} (h : messages.length ≤ limit) :
    keepLast limit messages = messages := by
  unfold keepLast
  rw [Nat.sub_eq_zero_of_le h, List.drop_zero]

/-- messages that were left out stay out -/
theorem keepLast_keepLast_append (limit : Nat) (old new : List Bytes) :
    keepLast limit (keepLast limit old ++ new) = keepLast limit (old ++ new) := by
  unfold keepLast
  rw [List.length_append, List.length_append, List.length_drop, List.drop_append, List.drop_append,
    List.drop_drop, List.length_drop]
  congr 2 <;> omega

theorem waiting_send (b : Broker) (topic other : String) (payload : Bytes) :
    (b.send topic payload).waiting other =
      if b.isHeard topic = false ∧ other = topic then
        keepLast b.limit (b.waiting topic ++ [payload])
      else b.waiting other := by
  unfold send
  by_cases hb : b.isHeard topic
  · simp [hb, waiting]
  · by_cases ho : other = topic
    · simp [hb, ho, waiting, Keyed.lookup_put]
    · simp [hb, ho, waiting, Keyed.lookup_put]

/-! ## channels -/

/-- opens the channel `b.next`, which takes over the backlog of its topic -/
def attach (b : Broker) (topic : String) : Broker :=
  { b with
    backlog := Keyed.erase topic b.backlog
    channels := b.channels ++ [⟨b.next, topic, b.waiting topic, true⟩]
    next := b.next + 1 }

theorem waiting_attach (b : Broker) (topic other : String) :
    (b.attach topic).waiting other = if other = topic then [] else b.waiting other := by
  by_cases h : other = topic <;> simp [attach, waiting, Keyed.lookup_erase, h]

/-- what has a receiver has no backlog -/
theorem isHeard_attach (b : Broker) (topic : String) : (b.attach topic).isHeard topic = true := by
  simp [attach, isHeard, Channel.hears]

def channel? (b : Broker) (id : Nat) : Option Channel := b.channels.find? (·.id = id)

def changeChannel (b : Broker) (id : Nat) (f : Channel → Channel) : Broker :=
  { b with channels := b.channels.map fun c => if c.id = id then f c else c }

/-- stops what feeds a channel; what is in its queue stays -/
def closeChannel (b : Broker) (id : Nat) : Broker := b.changeChannel id Channel.close

def dropChannel (b : Broker) (id : Nat) : Broker :=
  { b with channels := b.channels.filter (·.id ≠ id) }

/-- stops what feeds the channels of a topic -/
def closeTopic (b : Broker) (topic : String) : Broker :=
  { b with channels := b.channels.map fun c => if c.topic = topic then c.close else c }

/-- what a channel has to offer -/
inductive Pull where
  | message (payload : Bytes)
  /-- nothing now -/
  | empty
  /-- nothing now or later -/
  | ended
  deriving DecidableEq, Repr

def pull (b : Broker) (id : Nat) : Pull × Broker :=
  match b.channel? id with
  | none => (.ended, b)
  | some c =>
    match c.queue with
    | payload :: rest => (.message payload, b.changeChannel id fun c => { c with queue := rest })
    | [] => (if c.fed then .empty else .ended, b)

/-! ## subscriptions -/

/-- drops a channel that no source has and on which nothing waits -/
def dropUnheld (b : Broker) (id : Nat) : Broker :=
  if id ∈ b.awaited ∨ id ∈ b.subscriptions.map Prod.snd then b else b.dropChannel id

def subscribe (b : Broker) (source : Endpoint) : Broker :=
  let replaced := Keyed.lookup source.name b.subscriptions
  let b' := { b.attach source.topic with
    subscriptions := Keyed.put source.name b.next b.subscriptions }
  match replaced with
  | none => b'
  | some id => b'.dropUnheld id

/-- changes which channels are waited on -/
def await (b : Broker) (ids : List Nat) : Broker :=
  b.awaited.foldl dropUnheld { b with awaited := ids }

def closedFault (source : String) : DeliveryFault :=
  .transport s!"subscription for '{source}' is closed"

/-- what a receive gives that waits no longer -/
def Pull.received (window : Duration) (source : String) : Pull → Except DeliveryFault Bytes
  | .message payload => .ok payload
  | .empty => .error (.timeout window)
  | .ended => .error (closedFault source)

/-- takes the next message for a source; without one the window of the provider passes in vain -/
def receive (b : Broker) (source : String) : Except DeliveryFault Bytes × Broker :=
  match Keyed.lookup source b.subscriptions with
  | none => (.error (.notSubscribed source), b)
  | some id =>
    let (p, b') := b.pull id
    (p.received b.provider.timeout source, b')

end Broker

end ForgeRelay
