import ForgeRelay.Delivery.Fault
import ForgeRelay.Json.Document
import ForgeRelay.Yaml.Document

/-!
# Topologies

A topology declares the message providers of a relay, the destinations it publishes to and the
sources it listens on.  `Topology.decoder` reads one from a document of any format and
`Topology.toJson` writes one as a value, whose fields are sorted by name; `violation?` finds the
first thing wrong with one.
-/

namespace ForgeRelay

structure Provider where
  name : String
  /-- the kind of transport, as it is written -/
  kind : String
  url : String
  /-- how long a receive waits -/
  timeout : Duration
  deriving DecidableEq, Repr, Inhabited

/-- a topic under a name of its own; in the list of destinations it is one, and likewise a source -/
structure Endpoint where
  name : String
  topic : String
  /-- the name of the provider that carries the topic -/
  provider : String
  deriving DecidableEq, Repr, Inhabited

structure Topology where
  providers : List Provider
  destinations : List Endpoint
  sources : List Endpoint
  deriving DecidableEq, Repr, Inhabited

/-! ## documents -/

def Provider.defaultTimeout : Duration := .ofSecs 10

section
variable {δ : Type} [Document δ]

def Provider.decoder : Decoder δ Provider :=
  Record.read "ProviderDefinition" (Provider.mk
    <$> Record.required "name" Decoder.text
    <*> Record.required "providerType" Decoder.text
    <*> Record.withDefault "url" "" Decoder.text
    <*> Record.withDefault "timeout" Provider.defaultTimeout Decoder.duration)

def Endpoint.decoder : Decoder δ Endpoint :=
  Record.read "EventNode" (Endpoint.mk
    <$> Record.required "name" Decoder.text
    <*> Record.required "topic" Decoder.text
    <*> Record.required "providerRef" Decoder.text)

def Topology.decoder : Decoder δ Topology :=
  Record.read "EventDefinitions" (Topology.mk
    <$> Record.withDefault "messageProviders" [] (Decoder.list Provider.decoder)
    <*> Record.withDefault "eventDestinations" [] (Decoder.list Endpoint.decoder)
    <*> Record.withDefault "eventSources" [] (Decoder.list Endpoint.decoder))

end

/-- what a topology reads of a stream -/
def Topology.shape : Yaml.Shape :=
  let record (fields : List String) : Yaml.Shape :=
    .list (.record fun key => if key ∈ fields then .leaf else .nothing)
  .record fun key =>
    if key = "messageProviders" then record ["name", "providerType", "url", "timeout"]
    else if key = "eventDestinations" ∨ key = "eventSources" then
      record ["name", "topic", "providerRef"]
    else .nothing

/-- the provider as a value; a text written without one has the timeout last -/
def Provider.toJson (p : Provider) : Json :=
  Json.ofFields [("name", .str p.name), ("providerType", .str p.kind),
    ("timeout", .str p.timeout.millisText), ("url", .str p.url)]

def Endpoint.toJson (e : Endpoint) : Json :=
  Json.ofFields [("name", .str e.name), ("providerRef", .str e.provider), ("topic", .str e.topic)]

def Topology.toJson (t : Topology) : Json :=
  Json.ofFields [("eventDestinations", .arr (t.destinations.map Endpoint.toJson)),
    ("eventSources", .arr (t.sources.map Endpoint.toJson)),
    ("messageProviders", .arr (t.providers.map Provider.toJson))]

/-! ## consistency -/

inductive Role where
  | destination
  | source
  deriving DecidableEq, Repr

def Role.name : Role → String
  | .destination => "eventDestination"
  | .source => "eventSource"

/-- something wrong with a topology -/
inductive Violation where
  | unnamedProvider
  | repeatedProvider (name : String)
  | repeatedEndpoint (role : Role) (name : String)
  /-- the endpoint names a provider that is not declared -/
  | dangling (role : Role) (endpoint : Endpoint)
  deriving DecidableEq, Repr

def Violation.fault : Violation → DeliveryFault
  | .unnamedProvider => .configuration "message provider with empty name"
  | .repeatedProvider name => .configuration s!"duplicate message provider '{name}'"
  | .repeatedEndpoint role name => .configuration s!"duplicate {role.name} '{name}'"
  | .dangling role e => .unknownProvider s!"{role.name} '{e.name}' references '{e.provider}'"

/-- the first provider that has no name, or a name among those `seen` -/
def providerViolation? (seen : List String) : List Provider → Option Violation
  | [] => none
  | p :: ps =>
    if p.name = "" then some .unnamedProvider
    else if p.name ∈ seen then some (.repeatedProvider p.name)
    else providerViolation? (p.name :: seen) ps

/-- the first endpoint with a name among those `seen`, or without a provider that is `known` -/
def endpointViolation? (role : Role) (known seen : List String) :
    List Endpoint → Option Violation
  | [] => none
  | e :: es =>
    if e.name ∈ seen then some (.repeatedEndpoint role e.name)
    else if e.provider ∉ known then some (.dangling role e)
    else endpointViolation? role known (e.name :: seen) es

namespace Topology

def empty : Topology := ⟨[], [], []⟩

def providerNames (t : Topology) : List String := t.providers.map Provider.name

def violation? (t : Topology) : Option Violation :=
  (providerViolation? [] t.providers).or
    ((endpointViolation? .destination t.providerNames [] t.destinations).or
      (endpointViolation? .source t.providerNames [] t.sources))

def check (t : Topology) : Except DeliveryFault Unit :=
  match t.violation? with
  | none => .ok ()
  | some v => .error v.fault

theorem check_eq_ok {t : Topology} : t.check = .ok () ↔ t.violation? = none := by
  unfold check
  cases t.violation? <;> simp

theorem check_eq_error {t : Topology} {fault : DeliveryFault} :
    t.check = .error fault ↔ ∃ v, t.violation? = some v ∧ v.fault = fault := by
  unfold check
  cases t.violation? <;> simp

/-! ## lookups -/

def provider? (t : Topology) (name : String) : Option Provider :=
  t.providers.find? (·.name = name)

def destination? (t : Topology) (name : String) : Option Endpoint :=
  t.destinations.find? (·.name = name)

def source? (t : Topology) (name : String) : Option Endpoint :=
  t.sources.find? (·.name = name)

/-! ## loading -/

/-- reads a topology from YAML and checks it -/
def ofYaml (text : String) : Except DeliveryFault Topology :=
  match Yaml.decode shape decoder text with
  | .error why => .error (.serialization why.message)
  | .ok t => (t.check).map fun _ => t

/-- loads the topology in a file, given what reading the file gives -/
def load (path : String) (content : Except String String) : Except DeliveryFault Topology :=
  match content with
  | .error reason => .error (.configuration s!"unable to read {path}: {reason}")
  | .ok text => ofYaml text

end Topology

end ForgeRelay
