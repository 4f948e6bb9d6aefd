import ForgeRelay.Delivery.Fault

/-!
# What goes wrong in the relay

`RelayFault` lists the ways in which looking up credentials and endpoints fails.  Faults of
delivery are among them and keep their message.
-/

namespace ForgeRelay

inductive RelayFault where
  /-- no secret is for the repository -/
  | notFound (url : String)
  | malformedSecret (secret reason : String)
  /-- secrets cannot be listed -/
  | backend (reason : String)
  | delivery (fault : DeliveryFault)
  | configuration (reason : String)
  | serialization (reason : String)
  deriving DecidableEq, Repr

namespace RelayFault

def message : RelayFault → String
  | .notFound url => s!"Unable to find API token for url: {url}"
  | .malformedSecret secret reason => s!"Unable to decode secret '{secret}': {reason}"
  | .backend reason => s!"Backend error: {reason}"
  | .delivery fault => fault.message
  | .configuration reason => s!"Configuration error: {reason}"
  | .serialization reason => s!"Serialization error: {reason}"

/-- whether the same call may succeed later -/
def isTransient : RelayFault → Bool
  | .backend _ | .delivery (.transport _) | .delivery (.timeout _) => true
  | _ => false

end RelayFault

end ForgeRelay
