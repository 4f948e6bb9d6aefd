import ForgeRelay.Cluster.Resources
import ForgeRelay.Credential.Resolver
import ForgeRelay.Credential.Vault
import ForgeRelay.Delivery.Listener
import ForgeRelay.Service.Settings
import ForgeRelay.Webhook.Routes

/-!
# The service

A service is put together from its settings: the hub of its topology, a resolver of credentials, a
gateway, and a listener for each source of the hub.  What it finds outside of itself is given by
`World`.
-/

namespace ForgeRelay

inductive ServiceFault where
  | settings (fault : SettingsFault)
  | cluster (fault : ClusterFault)
  | delivery (fault : DeliveryFault)
  | io (reason : String)
  deriving DecidableEq, Repr

def ServiceFault.message : ServiceFault → String
  | .settings fault => fault.message
  | .cluster fault => fault.message
  | .delivery fault => fault.message
  | .io reason => s!"IO error: {reason}"

/-- what a service finds outside of itself -/
structure World where
  fileAt : String → Except String String
  dial : Provider → Except DeliveryFault Link
  exchange : Http.Exchange
  /-- the configuration of the cluster that the service runs in -/
  inCluster : Except ClusterFault ClusterConfig

structure Service where
  settings : Settings
  /-- where secrets are, if not in the cluster -/
  vault : Option Vault

/-- where a service takes secrets from -/
inductive SecretSource where
  | vault (v : Vault)
  | cluster (c : ClusterClient)

def SecretSource.list (exchange : Http.Exchange) :
    SecretSource → (space : String) → Except RelayFault (List Secret)
  | .vault v, space => v.list space
  | .cluster c, space => c.secretsFor exchange space

/-- what a service works with -/
structure Context where
  hub : Hub
  resolver : Resolver
  secrets : SecretSource

namespace Service

def clusterClient (s : Service) (w : World) : Except ClusterFault ClusterClient :=
  match s.settings.apiUrl with
  | some url => ClusterClient.ofConfig (.ofUrl url)
  | none => do ClusterClient.ofConfig (← w.inCluster)

def secretSource (s : Service) (w : World) : Except ClusterFault SecretSource :=
  match s.vault with
  | some v => .ok (.vault v)
  | none => (s.clusterClient w).map .cluster

def hub (s : Service) (w : World) : Except DeliveryFault Hub := do
  let path := s.settings.topologyPath
  Hub.start w.dial (← Topology.load path (w.fileAt path))

def resolver (s : Service) : Resolver :=
  .new s.settings.space (.ofSecs s.settings.cacheSecs)

def context (s : Service) (w : World) : Except ServiceFault Context :=
  match s.secretSource w with
  | .error fault => .error (.cluster fault)
  | .ok secrets =>
    match s.hub w with
    | .error fault => .error (.delivery fault)
    | .ok h => .ok ⟨h, s.resolver, secrets⟩

def gateway (s : Service) : Gateway := ⟨s.settings.destination, s.settings.secret⟩

/-- the URL of the collection index: the one that is set, or else the one that the cluster has -/
def indexUrl? (s : Service) (w : World) : Option String :=
  match s.settings.indexUrl, s.vault with
  | some url, _ => some url
  | none, some _ => none
  | none, none =>
    match s.clusterClient w with
    | .error _ => none
    | .ok c => (c.indexUrl w.exchange s.settings.space).toOption

/-- starts the service; `listen` says whether the address can be listened on -/
def run (s : Service) (w : World) (listen : String → Except String Unit) :
    Except ServiceFault Context := do
  let c ← s.context w
  match listen s.settings.address with
  | .ok () => return c
  | .error reason => throw (.io reason)

end Service

end ForgeRelay
