import ForgeRelay.Relay.Fault

/-!
# What goes wrong with the cluster

`ClusterFault` lists the ways in which talking to the API server of a cluster fails.
-/

namespace ForgeRelay

inductive ClusterFault where
  | configuration (reason : String)
  | http (reason : String)
  /-- the server answered with something else than success -/
  | status (code : Nat) (path message : String)
  | decode (path reason : String)
  /-- no collection of the namespace is active -/
  | noIndex (space : String)
  deriving DecidableEq, Repr

namespace ClusterFault

def message : ClusterFault → String
  | .configuration reason => s!"Kubernetes configuration error: {reason}"
  | .http reason => s!"HTTP error: {reason}"
  | .status code path message => s!"Kubernetes API returned {code} for {path}: {message}"
  | .decode path reason => s!"Unable to decode response from {path}: {reason}"
  | .noIndex space =>
    s!"unable to find collection url in kabanero custom resource for namespace {space}"

def toRelay : ClusterFault → RelayFault
  | .configuration reason => .configuration reason
  | fault => .backend fault.message

end ClusterFault

end ForgeRelay
