import ForgeRelay.Codec.Base64
import ForgeRelay.Credential.Secret
import ForgeRelay.Relay.Fault
import ForgeRelay.Text.Utf8

/-!
# Credential records

A credential record is what a secret says about repositories: the URLs that its annotations name,
and a user name and a token in base64.  A URL of an annotation stands for all repositories whose
URLs begin with it.  `patternFor?` finds the URL that stands for a repository, those of the
first kind of annotations before those of the second; `decode` gives the credential.
-/

namespace ForgeRelay

structure Credential where
  username : String
  token : String
  /-- the name of the secret -/
  secret : String
  deriving DecidableEq, Repr

/-- the diagnostic text of a credential, which does not show the token -/
def Credential.describe (c : Credential) : String :=
  Quoted.record "ResolvedCredential" [("username", Quoted.quote c.username),
    ("token", Quoted.quote "<redacted>"), ("secret_name", Quoted.quote c.secret)]

structure SealedCredential where
  name : String
  space : String
  primary : List String
  fallback : List String
  /-- in base64 -/
  username : Option String
  /-- in base64 -/
  token : Option String
  deriving DecidableEq, Repr

namespace SealedCredential

/-- keys of annotations begin like this -/
def primaryMark : String := "kabanero.io/git-"
def fallbackMark : String := "tekton.dev/git-"

def beginsWith (start s : String) : Bool := start.toList.isPrefixOf s.toList

/-- the URLs under keys that begin with `mark`, in the order of the keys -/
def patterns (mark : String) (annotations : StringMap String) : List String :=
  (annotations.entries.filter fun e => beginsWith mark e.1).map Prod.snd

def ofSecret (s : Secret) : SealedCredential where
  name := s.name
  space := s.space
  primary := patterns primaryMark s.annotations
  fallback := patterns fallbackMark s.annotations
  username := s.data.get? "username"
  token := s.data.get? "password"

def patternFor? (r : SealedCredential) (url : String) : Option String :=
  (r.primary.find? (beginsWith · url)).or (r.fallback.find? (beginsWith · url))

def isComplete (r : SealedCredential) : Bool :=
  r.name ≠ "" && r.username.isSome && r.token.isSome

/-! ## decoding -/

/-- the text under a key of a secret, given in base64 with blanks around it -/
def decodeField (secret key : String) : Option String → Except RelayFault String
  | none => .error (.malformedSecret secret s!"missing {key}")
  | some encoded =>
    match Base64.decode (Utf8.encode (trim encoded)) with
    | .error fault => .error (.malformedSecret secret s!"{key}: {fault.message}")
    | .ok bs =>
      match Utf8.decode bs with
      | .error fault => .error (.malformedSecret secret s!"{key}: {fault.message}")
      | .ok text => .ok text

def decode (r : SealedCredential) : Except RelayFault Credential := do
  let username ← decodeField r.name "username" r.username
  let token ← decodeField r.name "password" r.token
  return ⟨username, token, r.name⟩

end SealedCredential

end ForgeRelay
