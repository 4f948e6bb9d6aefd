import ForgeRelay.Credential.Resolver
import ForgeRelay.Http.Basic
import ForgeRelay.Webhook.Envelope
import ForgeRelay.Webhook.Repository
import ForgeRelay.Yaml.Document

/-!
# Downloading files of repositories

A file is downloaded from the repository that a webhook is about, with the credential that is
resolved for the repository.  A `Download` says what came of it, and what was done for it: whether
secrets were listed, and which calls were made.
-/

namespace ForgeRelay

structure Fetcher where
  /-- where all calls go, if not to the host of the repository -/
  apiUrl : Option String
  deriving DecidableEq, Repr

structure Download (α : Type) where
  answer : Except WebhookFault α
  resolver : Resolver
  listed : Bool
  /-- the calls that were made, in order -/
  calls : List Http.Call

/-- what downloads work with -/
structure Surroundings where
  now : Nat
  list : (space : String) → Except RelayFault (List Secret)
  exchange : Http.Exchange

namespace Fetcher

def trimSlashes (cs : List Char) : List Char := (cs.reverse.dropWhile (· = '/')).reverse

def withApiUrl (url : String) : Fetcher := ⟨some (String.ofList (trimSlashes url.toList))⟩

def rootUrl (f : Fetcher) (enterpriseHost : Option String) : String :=
  match f.apiUrl, enterpriseHost with
  | some url, _ => url
  | none, some host => s!"https://{host}/api/v3"
  | none, none => "https://api.github.com"

/-! ## calls -/

def fileUrl (f : Fetcher) (info : Checkout) (path : String) (host : Option String) :
    String :=
  let file := String.ofList (path.toList.dropWhile (· = '/'))
  s!"{f.rootUrl host}/repos/{info.owner}/{info.name}/contents/{file}"

def fileCall (f : Fetcher) (info : Checkout) (path : String) (host : Option String)
    (c : Credential) : Http.Call where
  method := "GET"
  url := f.fileUrl info path host
  query := if info.ref = "" then [] else [("ref", info.ref)]
  authorization := .basic c.username c.token
  accept := "application/vnd.github.v3+json"
  userAgent := some "hookrelay/0.1.0"

/-! ## replies -/

/-- a file as it is served -/
structure Served where
  kind : String
  encoding : Option String
  content : Option String
  deriving DecidableEq, Repr

def servedDecoder : Decoder Json Served :=
  Record.read "FileContent" (Served.mk
    <$> Record.required "type" Decoder.text
    <*> Record.optionalAnywhere "encoding" Decoder.text
    <*> Record.optionalAnywhere "content" Decoder.text)

def notFile (shown : String) : WebhookFault :=
  .malformed s!"unable to download {shown}: not a file"

/-- the octets of a file; base64 may be wrapped with blanks -/
def contentOctets (shown : String) (encoding : Option String) (content : String) :
    Except WebhookFault Bytes :=
  if encoding = some "base64" then
    match Base64.decode (Utf8.encode (String.ofList (content.toList.filter (!isBlank ·)))) with
    | .ok bs => .ok bs
    | .error fault => .error (.malformed s!"{shown}: {fault.message}")
  else .ok (Utf8.encode content)

def fileOctets (shown : String) (j : Json) : Except WebhookFault Bytes :=
  match j with
  | .obj _ =>
    match servedDecoder j with
    | .error why => .error (.malformed why.message)
    | .ok served =>
      if served.kind ≠ "file" then .error (notFile shown)
      else
        match served.content with
        | none => .error (.malformed s!"content for {shown} is nil")
        | some content => contentOctets shown served.encoding content
  | _ => .error (notFile shown)

/-- what a reply says of a file; there may be none -/
def ofReply (shown : String) : Except Http.CallFault Http.Reply → Except WebhookFault (Option Bytes)
  | .error .timeout => .error .timeout
  | .error (.failed reason) => .error (.http reason)
  | .ok reply =>
    if reply.status = 400 ∨ reply.status = 404 then .ok none
    else if reply.status ≠ 200 then .error (.refused shown reply.status)
    else
      match Json.read? reply.body with
      | none => .error (.http "error decoding response body")
      | some j => (fileOctets shown j).map some

/-! ## downloads -/

def shownPath (info : Checkout) (path : String) : String :=
  s!"{info.owner}/{info.name}/{path}"

def fetch (f : Fetcher) (r : Resolver) (s : Surroundings) (info : Checkout)
    (path : String) (host : Option String) : Download (Option Bytes) :=
  let found := r.resolve s.now s.list info.url
  match found.answer with
  | .error fault => ⟨.error (.relay fault), found.resolver, found.listed, []⟩
  | .ok c =>
    let call := f.fileCall info path host c
    ⟨ofReply (shownPath info path) (s.exchange call), found.resolver, found.listed, [call]⟩

def document (bs : Bytes) : Except WebhookFault Json :=
  match (Utf8.decode? bs).bind Yaml.json? with
  | some j => .ok j
  | none => .error (.malformed Mismatch.unreadable.message)

/-- the repository that an envelope is about -/
def subject (e : Envelope) : Except WebhookFault Checkout :=
  match e.eventType? with
  | none => .error (.absent "X-Github-Event header")
  | some name => Checkout.read (.ofName name) e.body

/-- downloads a YAML file of the repository that an envelope is about -/
def fetchYaml (f : Fetcher) (r : Resolver) (s : Surroundings) (e : Envelope) (path : String) :
    Download (Option Json) :=
  match subject e with
  | .error fault => ⟨.error fault, r, false, []⟩
  | .ok info =>
    let d := f.fetch r s info path e.enterpriseHost?
    match d.answer with
    | .error fault => { d with answer := .error fault }
    | .ok none => { d with answer := .ok none }
    | .ok (some bs) => { d with answer := (document bs).map some }

end Fetcher

end ForgeRelay
