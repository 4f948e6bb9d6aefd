import ForgeRelay.Cluster.Fault
import ForgeRelay.Cluster.Pem
import ForgeRelay.Http.Basic
import ForgeRelay.Json.Document
import ForgeRelay.Text.Blank

/-!
# Clients of a cluster

`ClusterConfig` says where the API server of a cluster is and how to address it; a process within
the cluster finds it in the files of its service account (`ofServiceAccount`).  A `ClusterClient`
gets JSON documents from the server.
-/

namespace ForgeRelay

structure ClusterConfig where
  apiUrl : String
  token : Option String
  /-- certificates to check the server by -/
  bundle : Option Bytes
  /-- how long a call may take -/
  timeout : Option Duration
  deriving DecidableEq, Repr

namespace ClusterConfig

def ofUrl (url : String) : ClusterConfig := ⟨url, none, none, none⟩

/-- the directory of the service account -/
def serviceAccountDir : String := "/var/run/secrets/kubernetes.io/serviceaccount"

/-- an address of IPv6 stands in brackets -/
def hostPart (host : String) : String :=
  if ':' ∈ host.toList then s!"[{host}]" else host

/-- the configuration in a directory of a service account, given what its files hold; `host` and
`port` may be set by the surroundings -/
def ofServiceAccount (dir : String) (host port : Option String) (token : Except String String)
    (bundle : Option Bytes) : Except ClusterFault ClusterConfig :=
  match token with
  | .error reason => .error (.configuration s!"unable to read {dir}/token: {reason}")
  | .ok token =>
    let host := hostPart (host.getD "kubernetes.default.svc")
    let port := port.getD "443"
    .ok ⟨s!"https://{host}:{port}", some (trim token), bundle, none⟩

def shownOption : Option String → String
  | none => "None"
  | some s => s!"Some({s})"

/-- the diagnostic text of a configuration, which does not show the token -/
def describe (c : ClusterConfig) : String :=
  Quoted.record "KubeConfig" [("api_url", Quoted.quote c.apiUrl),
    ("token", shownOption (c.token.map fun _ => Quoted.quote "<redacted>")),
    ("ca_pem", if c.bundle.isSome then "true" else "false"),
    ("timeout", shownOption (c.timeout.map Duration.text))]

end ClusterConfig

structure ClusterClient where
  /-- without slashes at its end -/
  baseUrl : String
  token : Option String
  deriving DecidableEq, Repr

namespace ClusterClient

def ofConfig (c : ClusterConfig) : Except ClusterFault ClusterClient :=
  if c.apiUrl = "" then .error (.configuration "API server URL is empty")
  else if c.bundle.all Pem.isSound then
    let kept := (c.apiUrl.toList.reverse.dropWhile (· = '/')).reverse
    .ok ⟨String.ofList kept, c.token⟩
  else .error (.configuration "malformed certificate bundle")

def call (c : ClusterClient) (path : String) : Http.Call where
  method := "GET"
  url := c.baseUrl ++ path
  query := []
  authorization :=
    match c.token with
    | some token => .bearer token
    | none => .none
  accept := "application/json"
  userAgent := none

/-- gets a document from the server -/
def get {α : Type} (c : ClusterClient) (exchange : Http.Exchange)
    (decoder : Decoder Json.Part α) (path : String) : Except ClusterFault α :=
  match exchange (c.call path) with
  | .error fault => .error (.http fault.reason)
  | .ok reply =>
    if 200 ≤ reply.status ∧ reply.status < 300 then
      match Json.decode decoder reply.body with
      | .ok a => .ok a
      | .error why => .error (.decode path why.message)
    else .error (.status reply.status path (Utf8.lossy reply.body))

end ClusterClient

end ForgeRelay
