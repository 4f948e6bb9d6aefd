import ForgeRelay.Delivery.Hub
import ForgeRelay.Relay.Fault

/-!
# Endpoints by name

The endpoints of a hub are addressed by name; each comes with the link that carries it.
-/

namespace ForgeRelay.Hub

def unknownEndpoint (role : Role) (name : String) : RelayFault :=
  .configuration s!"unable to find an {role.name} with the name '{name}'"

/-- an endpoint that was looked up, with its link -/
def resolve (h : Hub) (role : Role) (name : String) :
    Option Endpoint → Except RelayFault (Endpoint × Link)
  | none => .error (unknownEndpoint role name)
  | some e =>
    match h.linkFor e with
    | .ok l => .ok (e, l)
    | .error fault => .error (.delivery fault)

def destination (h : Hub) (name : String) : Except RelayFault (Endpoint × Link) :=
  h.resolve .destination name (h.topology.destination? name)

def source (h : Hub) (name : String) : Except RelayFault (Endpoint × Link) :=
  h.resolve .source name (h.topology.source? name)

end ForgeRelay.Hub
