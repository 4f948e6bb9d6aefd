import ForgeRelay.Duration

/-!
# What goes wrong in delivery

`DeliveryFault` lists the ways in which loading definitions, publishing and receiving fail.
-/

namespace ForgeRelay

inductive DeliveryFault where
  /-- a connection, a publish or a subscription failed at the provider -/
  | transport (reason : String)
  /-- nothing came within the window -/
  | timeout (window : Duration)
  | notSubscribed (source : String)
  | unknownProvider (reference : String)
  | configuration (reason : String)
  | serialization (reason : String)
  | handler (reason : String)
  deriving DecidableEq, Repr

def DeliveryFault.message : DeliveryFault → String
  | .transport reason => s!"Transport error: {reason}"
  | .timeout window => s!"No message received within {window.text}"
  | .notSubscribed source => s!"No subscription for event source '{source}'"
  | .unknownProvider reference => s!"Unknown message provider: {reference}"
  | .configuration reason => s!"Configuration error: {reason}"
  | .serialization reason => s!"Serialization error: {reason}"
  | .handler reason => s!"Handler failed: {reason}"

end ForgeRelay
