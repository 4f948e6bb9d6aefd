import ForgeRelay.Delivery.Broker

/-!
# Hubs

A hub is a topology with a live link for each of its providers.  `Hub.start` checks a topology
and connects its providers; how a remote provider is reached is for `dial` to say.  A link to a
remote provider acts like a broker that keeps nothing, and refuses messages past a limit.
-/

namespace ForgeRelay

structure Link where
  broker : Broker
  /-- the longest message that is taken -/
  maxPayload : Option Nat
  deriving DecidableEq, Repr

namespace Link

def loopback (p : Provider) : Link := ⟨.new p, none⟩

def remote (p : Provider) (maxPayload : Nat) : Link := ⟨.withLimit 0 p, some maxPayload⟩

def provider (l : Link) : Provider := l.broker.provider

def accepts (l : Link) (payload : Bytes) : Bool :=
  match l.maxPayload with
  | none => true
  | some limit => payload.length ≤ limit

def send (l : Link) (topic : String) (payload : Bytes) : Except DeliveryFault Unit × Link :=
  if l.accepts payload then (.ok (), { l with broker := l.broker.send topic payload })
  else (.error (.transport s!"publish to '{topic}' failed: message too long"), l)

def subscribe (l : Link) (source : Endpoint) : Link :=
  { l with broker := l.broker.subscribe source }

def receive (l : Link) (source : Endpoint) : Except DeliveryFault Bytes × Link :=
  let (outcome, b) := l.broker.receive source.name
  (outcome, { l with broker := b })

end Link

structure Hub where
  topology : Topology
  links : List (String × Link)
  deriving DecidableEq, Repr

namespace Hub

/-- a hub of links that are there already; of several of one name the last counts -/
def withLinks (topology : Topology) (links : List Link) : Hub :=
  ⟨topology, links.foldl (fun known l => Keyed.put l.provider.name l known) []⟩

def unsupported (p : Provider) : DeliveryFault :=
  .configuration s!"message provider '{p.name}' has unsupported type '{p.kind}'"

def connect (dial : Provider → Except DeliveryFault Link) (p : Provider) :
    Except DeliveryFault Link :=
  if p.kind = "nats" then dial p
  else if p.kind = "memory" then .ok (.loopback p)
  else .error (unsupported p)

/-- connects providers in order, up to the first that fails -/
def connectAll (dial : Provider → Except DeliveryFault Link) :
    List Provider → Except DeliveryFault (List (String × Link))
  | [] => .ok []
  | p :: ps => do
    let l ← connect dial p
    let ls ← connectAll dial ps
    return (p.name, l) :: ls

def start (dial : Provider → Except DeliveryFault Link) (t : Topology) :
    Except DeliveryFault Hub := do
  t.check
  return ⟨t, ← connectAll dial t.providers⟩

def link? (h : Hub) (name : String) : Option Link := Keyed.lookup name h.links

/-- the link that carries an endpoint -/
def linkFor (h : Hub) (e : Endpoint) : Except DeliveryFault Link :=
  match h.link? e.provider with
  | some l => .ok l
  | none => .error (.unknownProvider e.provider)

def putLink (h : Hub) (name : String) (l : Link) : Hub :=
  { h with links := Keyed.put name l h.links }

end Hub

end ForgeRelay
