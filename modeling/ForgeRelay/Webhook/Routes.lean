import ForgeRelay.Webhook.Gateway

/-!
# Routes

Webhooks are posted to `/webhook`, and `/healthz` can be asked whether the relay is there.
-/

namespace ForgeRelay.Routes

def json (status : Nat) (body : Bytes) : Http.Response :=
  ⟨status, some "application/json", none, body⟩

def plain (status : Nat) : Http.Response := ⟨status, none, none, []⟩

def notAllowed (methods : String) : Http.Response := ⟨405, none, some methods, []⟩

/-- the longest body that is read -/
def maxBody : Nat := 2097152

def tooLarge : Http.Response :=
  ⟨413, some "text/plain; charset=utf-8", none,
    Utf8.encode "Failed to buffer the request body: length limit exceeded"⟩

def health : Http.Response := json 200 (Json.obj [("status", .str "ok")]).write

def ofOutcome : Except WebhookFault Acceptance → Http.Response
  | .ok _ => plain 202
  | .error fault => json fault.status fault.responseBody

def webhook (g : Gateway) (h : Hub) (r : Http.Request) : Http.Response × Hub :=
  if r.method = "POST" then
    if maxBody < r.body.length then (tooLarge, h)
    else
      let (outcome, h) := g.accept h r.headers r.body
      (ofOutcome outcome, h)
  else (notAllowed "POST", h)

def respond (g : Gateway) (h : Hub) (r : Http.Request) : Http.Response × Hub :=
  if r.path = "/webhook" then webhook g h r
  else if r.path = "/healthz" then
    if r.method = "GET" then (health, h)
    else if r.method = "HEAD" then ({ health with body := [] }, h)
    else (notAllowed "GET,HEAD", h)
  else (plain 404, h)

end ForgeRelay.Routes
