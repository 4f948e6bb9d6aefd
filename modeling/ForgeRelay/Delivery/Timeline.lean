import ForgeRelay.Delivery.Listener

/-!
# Receives and listeners over time

A broker with the receives that wait on it, its listeners, and a clock.  A receive waits until a
message comes, its channel ends or its window has passed; of several on one channel the first one
waits and the others queue up behind it.  `settle` does all that can be done without time passing,
`finish` lets time pass until a receive has come to its end.

Listeners stop when the signal that they follow has been given.  The listeners of the crew share a
signal; `dismiss` gives it and puts a new crew in place of the old one.
-/

namespace ForgeRelay

/-- a receive that waits, or did -/
structure Wait where
  source : String
  channel : Nat
  /-- when its window ends, in nanoseconds; not set while it queues up -/
  deadline : Option Nat
  outcome : Option (Except DeliveryFault Bytes)

def Wait.isUnfinished (w : Wait) : Bool := w.outcome.isNone

/-- what a listener follows -/
inductive Signal where
  | never
  | named (name : String)
  | crew (number : Nat)
  deriving DecidableEq, Repr

structure Post where
  signal : Signal
  listener : Listener

structure Timeline where
  broker : Broker
  /-- nanoseconds since the start -/
  now : Nat
  /-- in the order in which they began -/
  waits : List Wait
  posts : List Post
  given : List Signal
  /-- the number of the present crew -/
  crew : Nat

namespace Timeline

def start (b : Broker) : Timeline := ⟨b, 0, [], [], [], 0⟩

/-! ## waiting -/

/-- a look at the channel of a receive which is first there -/
def attempt (now : Nat) (w : Wait) (b : Broker) : Wait × Broker :=
  let window := b.provider.timeout
  let deadline := w.deadline.getD (now + window.nanos)
  match b.pull w.channel with
  | (.empty, b') =>
    if deadline ≤ now then ({ w with outcome := some (.error (.timeout window)) }, b')
    else ({ w with deadline := some deadline }, b')
  | (p, b') => ({ w with outcome := some (p.received window w.source) }, b')

/-- looks at all receives in order; on the channels that are `taken` an earlier one waits -/
def attempts (now : Nat) (taken : List Nat) : List Wait → Broker → List Wait × Broker
  | [], b => ([], b)
  | w :: ws, b =>
    if !w.isUnfinished || w.channel ∈ taken then
      let (ws, b) := attempts now taken ws b
      (w :: ws, b)
    else
      let (w, b) := attempt now w b
      let (ws, b) := attempts now (if w.isUnfinished then w.channel :: taken else taken) ws b
      (w :: ws, b)

def unfinished (ws : List Wait) : List Wait := ws.filter Wait.isUnfinished

/-! ## listeners -/

def isGiven (given : List Signal) (s : Signal) : Bool := s ∈ given

def serve (given : List Signal) : List Post → Broker → List Post × Broker
  | [], b => ([], b)
  | p :: ps, b =>
    let (l, b) := p.listener.settle (isGiven given p.signal) b
    let (ps, b) := serve given ps b
    (⟨p.signal, l⟩ :: ps, b)

/-! ## settling -/

def settle (t : Timeline) : Timeline :=
  let (waits, b) := attempts t.now [] t.waits t.broker
  let b := b.await ((unfinished waits).map Wait.channel)
  let (posts, b) := serve t.given t.posts b
  { t with broker := b, waits := waits, posts := posts }

/-- the next end of a window -/
def nextDeadline? (t : Timeline) : Option Nat :=
  ((unfinished t.waits).filterMap Wait.deadline).min?

/-- lets time pass, from window to window, until a receive has an outcome; each window that ends
settles one receive -/
def finishWithin (i : Nat) : Nat → Timeline → Timeline
  | 0, t => t
  | fuel + 1, t =>
    match (t.waits[i]?).bind Wait.outcome with
    | some _ => t
    | none =>
      match t.nextDeadline? with
      | none => t
      | some deadline => finishWithin i fuel (settle { t with now := t.now + (deadline - t.now) })

def finish (i : Nat) (t : Timeline) : Timeline := finishWithin i (t.waits.length + 1) t

def outcome? (i : Nat) (t : Timeline) : Option (Except DeliveryFault Bytes) :=
  (t.waits[i]?).bind Wait.outcome

/-! ## what can be done -/

def change (f : Broker → Broker) (t : Timeline) : Timeline :=
  settle { t with broker := f t.broker }

/-- begins a receive, which is the last of `waits` -/
def beginReceive (source : String) (t : Timeline) : Timeline :=
  match Keyed.lookup source t.broker.subscriptions with
  | none =>
    { t with waits := t.waits ++ [⟨source, 0, none, some (.error (.notSubscribed source))⟩] }
  | some id => settle { t with
      broker := t.broker.await (t.broker.awaited ++ [id])
      waits := t.waits ++ [⟨source, id, none, none⟩] }

def receive (source : String) (t : Timeline) : Option (Except DeliveryFault Bytes) × Timeline :=
  let i := t.waits.length
  let t := (t.beginReceive source).finish i
  (t.outcome? i, t)

/-- starts a listener, which is the last of `posts` -/
def listen (topic : String) (signal : Signal) (handler : Handler) (t : Timeline) : Timeline :=
  let (l, b) := Listener.start t.broker topic fun _ => handler
  settle { t with broker := b, posts := t.posts ++ [⟨signal, l⟩] }

def give (signal : Signal) (t : Timeline) : Timeline :=
  settle { t with given := signal :: t.given }

/-- the number of listeners that the present crew ever had -/
def crewSize (t : Timeline) : Nat := t.posts.countP (·.signal = .crew t.crew)

def dismiss (t : Timeline) : Timeline :=
  { t.give (.crew t.crew) with crew := t.crew + 1 }

end Timeline

end ForgeRelay
