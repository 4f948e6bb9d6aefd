import ForgeRelay.Json.Document
import ForgeRelay.Webhook.Fault

/-!
# Repositories in webhooks

The body of a webhook says which repository it is about and, for some events, which commit.
`commitOf` reads the commit and `Checkout.read` the rest.  A part of the wrong kind makes the
body invalid; of parts that are absent the first one asked for is reported.
-/

namespace ForgeRelay

/-- events by the commit that they name -/
inductive EventKind where
  | push
  | pullRequest
  | other (name : String)
  deriving DecidableEq, Repr

def EventKind.ofName (name : String) : EventKind :=
  if name = "push" then .push
  else if name = "pull_request" then .pullRequest
  else .other name

namespace Repository

/-- reads a record of a body -/
def part {α : Type} (decoder : Decoder Json α) (body : Json) : Except WebhookFault α :=
  match decoder body with
  | .ok a => .ok a
  | .error why => .error (.malformed why.message)

/-- a part that must be there -/
def need {α : Type} (field : String) : Option α → Except WebhookFault α
  | some a => .ok a
  | none => .error (.absent field)

/-! ## commits -/

def pushDecoder : Decoder Json (Option String) :=
  Record.read "PushBody" (Record.optional "after" Decoder.text)

def headDecoder : Decoder Json (Option String) :=
  Record.read "Head" (Record.optional "sha" Decoder.text)

def pullRequestDecoder : Decoder Json (Option (Option String)) :=
  Record.read "PullRequest" (Record.optional "head" headDecoder)

def pullRequestBodyDecoder : Decoder Json (Option (Option (Option String))) :=
  Record.read "PullRequestBody" (Record.optional "pull_request" pullRequestDecoder)

/-- the commit that an event is about; there is none for other events -/
def commitOf (event : EventKind) (body : Json) : Except WebhookFault String :=
  match event with
  | .push => do need "after" (← part pushDecoder body)
  | .pullRequest => do
    let request ← need "pull_request" (← part pullRequestBodyDecoder body)
    let head ← need "pull_request.head" request
    need "pull_request.head.sha" head
  | .other _ => .ok ""

/-! ## repositories -/

/-- the parts of a repository, as far as they are there -/
structure Parts where
  name : Option String
  /-- the login of the owner -/
  owner : Option (Option String)
  url : Option String
  deriving DecidableEq, Repr

def ownerDecoder : Decoder Json (Option String) :=
  Record.read "Owner" (Record.optional "login" Decoder.text)

def partsDecoder : Decoder Json Parts :=
  Record.read "Repository" (Parts.mk
    <$> Record.optional "name" Decoder.text
    <*> Record.optional "owner" ownerDecoder
    <*> Record.optional "html_url" Decoder.text)

def bodyDecoder : Decoder Json (Option Parts) :=
  Record.read "RepositoryBody" (Record.optional "repository" partsDecoder)

end Repository

structure Checkout where
  owner : String
  name : String
  url : String
  /-- the commit; empty if the event names none -/
  ref : String
  deriving DecidableEq, Repr

open Repository in
def Checkout.read (event : EventKind) (body : Json) :
    Except WebhookFault Checkout := do
  let ref ← commitOf event body
  let parts ← need "repository" (← part bodyDecoder body)
  let name ← need "repository.name" parts.name
  let owner ← need "repository.owner.login" (parts.owner.bind id)
  let url ← need "repository.html_url" parts.url
  return ⟨owner, name, url, ref⟩

end ForgeRelay
