import ForgeRelay.Relay.Lookup
import ForgeRelay.Webhook.Envelope
import ForgeRelay.Webhook.Signature

/-!
# The gateway

A gateway publishes webhooks to a destination of a hub.  With a secret it asks for a signature of
the body.  A webhook that is accepted is sent once; that the sending failed is said in
`Acceptance.published` and is no fault of the webhook.
-/

namespace ForgeRelay

structure Gateway where
  destination : String
  secret : Option String
  deriving DecidableEq, Repr

structure Acceptance where
  envelope : Envelope
  /-- whether the envelope was sent -/
  published : Bool

namespace Gateway

/-- the destination of a gateway for which none is named -/
def defaultDestination : String := "github"

/-! ## signatures -/

/-- octets that a header read as text may have -/
def isVisible (b : UInt8) : Bool := b = Ascii.tab || (0x20 ≤ b && b ≤ 0x7e)

def headerText? (value : Bytes) : Option String :=
  if value.all isVisible then Utf8.decode? value else none

def verify (g : Gateway) (headers : Http.Headers) (body : Bytes) : Except WebhookFault Unit :=
  match g.secret with
  | none => .ok ()
  | some secret =>
    match (headers.first? Signature.headerName).bind headerText? with
    | none => .error .unsigned
    | some header =>
      match Signature.verify secret header body with
      | .ok () => .ok ()
      | .error _ => .error .forged

/-! ## publishing -/

/-- sends an envelope to the destination -/
def publish (g : Gateway) (h : Hub) (e : Envelope) : Except WebhookFault Unit × Hub :=
  match h.destination g.destination with
  | .error fault => (.error (.relay fault), h)
  | .ok (node, l) =>
    match l.send node.topic e.wire with
    | (.ok (), l) => (.ok (), h.putLink node.provider l)
    | (.error fault, l) => (.error (.publish fault), h.putLink node.provider l)

/-- the fields of a body that is a JSON object -/
def bodyFields (body : Bytes) : Except WebhookFault (List (String × Json)) :=
  match Json.read? body with
  | some (.obj fields) => .ok fields
  | some j => .error (.malformed (Mismatch.kind j.found "a map").message)
  | none => .error (.malformed Mismatch.unreadable.message)

def accept (g : Gateway) (h : Hub) (headers : Http.Headers) (body : Bytes) :
    Except WebhookFault Acceptance × Hub :=
  match g.verify headers body with
  | .error fault => (.error fault, h)
  | .ok () =>
    match bodyFields body with
    | .error fault => (.error fault, h)
    | .ok fields =>
      let e := Envelope.ofRequest headers fields
      match g.publish h e with
      | (.ok (), h) => (.ok ⟨e, true⟩, h)
      | (.error _, h) => (.ok ⟨e, false⟩, h)

end Gateway

end ForgeRelay
