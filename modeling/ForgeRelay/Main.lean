import ForgeRelay.Service.Basic
import ForgeRelay.Service.Crew

/-!
# The command

`forge-relay [settings.toml]` puts a service together from its settings, the environment and the
files that they name, starts its listeners, and says what it would listen on.  It neither opens
sockets nor makes calls.
-/

open ForgeRelay

namespace ForgeRelay.Command

def fileText (path : String) : IO (Except String String) := do
  try return .ok (← IO.FS.readFile path)
  catch e => return .error (toString e)

def fileBytes? (path : String) : IO (Option Bytes) := do
  try return some (← IO.FS.readBinFile path).toList
  catch _ => return none

/-- the settings in a file, or those of a relay without one, under the variables that are set -/
def settings (path? : Option String) : IO (Except SettingsFault Settings) := do
  let space ← IO.getEnv Settings.spaceVariable
  let indexUrl ← IO.getEnv Settings.indexUrlVariable
  let value? (name : String) : Option String :=
    if name = Settings.spaceVariable then space
    else if name = Settings.indexUrlVariable then indexUrl
    else none
  let loaded ← match path? with
    | some path => pure (Settings.load (← fileText path))
    | none => pure (.ok Settings.default)
  return loaded.map (Settings.override value?)

def inCluster : IO (Except ClusterFault ClusterConfig) := do
  let dir := ClusterConfig.serviceAccountDir
  let host ← IO.getEnv "KUBERNETES_SERVICE_HOST"
  let port ← IO.getEnv "KUBERNETES_SERVICE_PORT"
  let token ← fileText (dir ++ "/token")
  let bundle ← fileBytes? (dir ++ "/ca.crt")
  return ClusterConfig.ofServiceAccount dir host port token bundle

/-- what the settings need of the world -/
def world (s : Settings) : IO World := do
  let topology ← fileText s.topologyPath
  let cluster ← inCluster
  return {
    fileAt := fun _ => topology
    dial := fun p => .error (.transport ("unable to connect to " ++ p.url))
    exchange := fun _ => .error (.failed "no connection")
    inCluster := cluster }

def fail (message : String) : IO UInt32 := do
  IO.eprintln ("Error: " ++ message)
  return 1

def run (path? : Option String) : IO UInt32 := do
  match ← settings path? with
  | .error fault => fail fault.message
  | .ok s =>
    let w ← world s
    match (Service.mk s none).run w fun _ => .ok () with
    | .error fault => fail fault.message
    | .ok c =>
      let (crew, _) := Crew.start (fun _ => .ok ()) c.hub
      IO.println (s.address ++ ", listeners: " ++ toString crew.length)
      return 0

end ForgeRelay.Command

def main (args : List String) : IO UInt32 := ForgeRelay.Command.run args.head?
