import ForgeRelay.Delivery.Broker

/-!
# Listeners

A listener has a channel of its own and passes every message that comes in on it to a handler.
While it serves it takes what is there, and once nothing is there it looks whether the channel has
ended or a stop was asked for.  Then it leaves, closes the channel, drains what was delivered before,
and returns; a message may still come in between leaving and closing.  What the handler makes of a
message changes nothing: `Listener.log` keeps it.
-/

namespace ForgeRelay

abbrev Handler := Bytes → Except DeliveryFault Unit

/-- a handler that goes by what it handled before -/
abbrev Handler.Stateful := (before : List Bytes) → Handler

inductive Listener.Stage where
  | serving
  /-- nothing more is waited for, but the channel is not closed yet -/
  | leaving
  /-- the channel is closed, and its queue is emptied -/
  | draining
  | returned
  deriving DecidableEq, Repr

structure Listener where
  channel : Nat
  stage : Listener.Stage
  handler : Handler.Stateful
  /-- the messages handled so far, with what the handler made of them -/
  log : List (Bytes × Except DeliveryFault Unit)

namespace Listener

def handled (l : Listener) : List Bytes := l.log.map Prod.fst

def isRunning (l : Listener) : Bool := l.stage ≠ .returned

def start (b : Broker) (topic : String) (handler : Handler.Stateful) : Listener × Broker :=
  (⟨b.next, .serving, handler, []⟩, b.attach topic)

def handle (l : Listener) (payload : Bytes) : Listener :=
  { l with log := l.log ++ [(payload, l.handler l.handled payload)] }

/-- one step; `stop` says whether a stop was asked for -/
def step (stop : Bool) (l : Listener) (b : Broker) : Listener × Broker :=
  match l.stage with
  | .serving =>
    match b.pull l.channel with
    | (.message payload, b') => (l.handle payload, b')
    | (.ended, b') => ({ l with stage := .leaving }, b')
    | (.empty, b') => (if stop then { l with stage := .leaving } else l, b')
  | .leaving => ({ l with stage := .draining }, b.closeChannel l.channel)
  | .draining =>
    match b.pull l.channel with
    | (.message payload, b') => (l.handle payload, b')
    | (_, b') => ({ l with stage := .returned }, b'.dropChannel l.channel)
  | .returned => (l, b)

def steps (stop : Bool) : Nat → Listener → Broker → Listener × Broker
  | 0, l, b => (l, b)
  | n + 1, l, b =>
    let (l, b) := l.step stop b
    steps stop n l b

theorem handled_handle (l : Listener) (payload : Bytes) :
    (l.handle payload).handled = l.handled ++ [payload] := by
  simp [handle, handled]

/-- the number of messages on the channel of a listener -/
def pending (l : Listener) (b : Broker) : Nat :=
  match b.channel? l.channel with
  | some c => c.queue.length
  | none => 0

/-- steps until nothing is left to do: one for each message, and three to leave, to close and to
return -/
def settle (stop : Bool) (l : Listener) (b : Broker) : Listener × Broker :=
  steps stop (l.pending b + 3) l b

end Listener

end ForgeRelay
