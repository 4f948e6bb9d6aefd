import ForgeRelay.Json.Writer
import ForgeRelay.Relay.Fault

/-!
# What goes wrong with webhooks

`WebhookFault` lists the ways in which accepting a webhook, publishing it, reading its body and
downloading files fail, with the response that each of them gets.
-/

namespace ForgeRelay

inductive WebhookFault where
  | unsigned
  | forged
  | malformed (reason : String)
  /-- something is not in the webhook -/
  | absent (field : String)
  | relay (fault : RelayFault)
  | publish (fault : DeliveryFault)
  | http (reason : String)
  | refused (path : String) (status : Nat)
  | timeout
  deriving DecidableEq, Repr

namespace WebhookFault

def message : WebhookFault → String
  | .unsigned => "Missing signature"
  | .forged => "Invalid signature"
  | .malformed reason => s!"Invalid payload: {reason}"
  | .absent field => s!"webhook message {field} not found"
  | .relay fault => fault.message
  | .publish fault => s!"Publish failed: {fault.message}"
  | .http reason => s!"HTTP error: {reason}"
  | .refused path status => s!"unable to download {path}, http error {status}"
  | .timeout => "Request timeout"

/-- whether the sender is at fault -/
def isClientError : WebhookFault → Bool
  | .unsigned | .forged | .malformed _ => true
  | _ => false

def status : WebhookFault → Nat
  | .unsigned | .forged => 401
  | .malformed _ => 400
  | _ => 500

def responseBody (fault : WebhookFault) : Bytes :=
  (Json.obj [("error", .str fault.message)]).write

end WebhookFault

end ForgeRelay
