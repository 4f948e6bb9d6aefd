import ForgeRelay.Delivery.Listener
import ForgeRelay.Relay.Lookup

/-!
# Crews

A crew has a listener for each source of a hub, in the order in which they are declared; a source
that cannot be looked up has none.  `Crew.settle` lets all of them do what is left to do, and with
`stop` they return.
-/

namespace ForgeRelay

/-- a listener with the source for which it listens -/
structure Member where
  source : Endpoint
  listener : Listener

abbrev Crew := List Member

namespace Crew

/-- starts listeners for sources, as far as they can be looked up -/
def startAll (handler : Handler) : List Endpoint → Hub → Crew × Hub
  | [], h => ([], h)
  | e :: es, h =>
    match h.source e.name with
    | .error _ => startAll handler es h
    | .ok (node, l) =>
      let (listener, b) := Listener.start l.broker node.topic fun _ => handler
      let (crew, h) := startAll handler es (h.putLink node.provider { l with broker := b })
      (⟨node, listener⟩ :: crew, h)

def start (handler : Handler) (h : Hub) : Crew × Hub := startAll handler h.topology.sources h

def settle (stop : Bool) : Crew → Hub → Crew × Hub
  | [], h => ([], h)
  | m :: ms, h =>
    match h.link? m.source.provider with
    | none =>
      let (ms, h) := settle stop ms h
      (m :: ms, h)
    | some l =>
      let (listener, b) := m.listener.settle stop l.broker
      let (ms, h) := settle stop ms (h.putLink m.source.provider { l with broker := b })
      (⟨m.source, listener⟩ :: ms, h)

end Crew

end ForgeRelay
