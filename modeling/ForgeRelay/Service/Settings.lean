import ForgeRelay.Toml.Line

/-!
# Settings

The settings of a relay are read from the table `server` of a TOML document; each has a default.
Variables of the environment override two of them.
-/

namespace ForgeRelay

structure Settings where
  host : String
  port : Nat
  /-- the namespace of secrets and resources -/
  space : String
  /-- the file that holds the topology -/
  topologyPath : String
  /-- the destination of webhooks -/
  destination : String
  /-- the secret that webhooks are signed with -/
  secret : Option String
  logLevel : String
  /-- how long a listing of secrets is used again; at 0 none is -/
  cacheSecs : Nat
  /-- the API server; without one the relay runs within a cluster -/
  apiUrl : Option String
  indexUrl : Option String
  deriving DecidableEq, Repr

inductive SettingsFault where
  | io (reason : String)
  | parse (reason : String)
  | invalid (reason : String)
  deriving DecidableEq, Repr

def SettingsFault.message : SettingsFault → String
  | .io reason => s!"IO error: {reason}"
  | .parse reason => s!"Parse error: {reason}"
  | .invalid reason => s!"Invalid configuration: {reason}"

namespace Settings

def default : Settings where
  host := "0.0.0.0"
  port := 9080
  space := "kabanero"
  topologyPath := "eventDefinitions.yaml"
  destination := "github"
  secret := none
  logLevel := "info"
  cacheSecs := 0
  apiUrl := none
  indexUrl := none

/-- the address that is listened on -/
def address (s : Settings) : String := s!"{s.host}:{s.port}"

/-! ## reading -/

def decoder {δ : Type} [Document δ] : Decoder δ Settings :=
  Record.read "ServerConfig" (Settings.mk
    <$> Record.withDefault "host" default.host Decoder.text
    <*> Record.withDefault "port" default.port (Decoder.nat 0x10000)
    <*> Record.withDefault "namespace" default.space Decoder.text
    <*> Record.withDefault "provider_config" default.topologyPath Decoder.text
    <*> Record.withDefault "webhook_destination" default.destination Decoder.text
    <*> Record.optionalAnywhere "webhook_secret" Decoder.text
    <*> Record.withDefault "log_level" default.logLevel Decoder.text
    <*> Record.withDefault "credential_cache_secs" default.cacheSecs (Decoder.nat 0x10000000000000000)
    <*> Record.optionalAnywhere "kube_api_url" Decoder.text
    <*> Record.optionalAnywhere "index_url" Decoder.text)

/-- the settings of a document; without the table `server` all are defaults -/
def documentDecoder : Decoder Toml.Value Settings := fun v =>
  match v.get? "server" with
  | some table => decoder table
  | none => .ok default

def check (s : Settings) : Except SettingsFault Settings :=
  if s.topologyPath = "" then .error (.invalid "provider_config must not be empty") else .ok s

def parse (text : String) : Except SettingsFault Settings :=
  match Toml.decode documentDecoder text with
  | .error why => .error (.parse why.message)
  | .ok s => s.check

/-- loads the settings in a file, given what reading the file gives -/
def load (content : Except String String) : Except SettingsFault Settings :=
  match content with
  | .error reason => .error (.io reason)
  | .ok text => parse text

/-! ## overrides -/

def spaceVariable : String := "KUBE_NAMESPACE"
def indexUrlVariable : String := "KABANERO_INDEX_URL"

/-- applies variables of the environment; those that are empty do not count -/
def override (lookup : String → Option String) (s : Settings) : Settings :=
  let set? (name : String) : Option String := (lookup name).filter (· ≠ "")
  { s with
    space := (set? spaceVariable).getD s.space
    indexUrl := (set? indexUrlVariable).or s.indexUrl }

end Settings

end ForgeRelay
