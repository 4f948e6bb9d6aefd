import ForgeRelay.Cluster.Client
import ForgeRelay.Credential.Secret

/-!
# Resources of a cluster

The secrets of a namespace, and its Kabanero instances, which list repositories of collections.
`Kabanero.indexUrl?` finds the first repository whose default collections are activated.
-/

namespace ForgeRelay

structure CollectionEntry where
  name : Option String
  url : Option String
  /-- whether default collections are activated -/
  active : Option Bool
  deriving DecidableEq, Repr

structure Kabanero where
  name : String
  /-- there may be no specification, and none of collections in it -/
  spec : Option (Option (List CollectionEntry))
  deriving DecidableEq, Repr

namespace Kabanero

section
variable {δ : Type} [Document δ]

def repositoryDecoder : Decoder δ CollectionEntry :=
  Record.read "CollectionRepository" (CollectionEntry.mk
    <$> Record.optionalAnywhere "name" Decoder.text
    <*> Record.optionalAnywhere "url" Decoder.text
    <*> Record.optionalAnywhere "activateDefaultCollections" Decoder.bool)

def collectionsDecoder : Decoder δ (List CollectionEntry) :=
  Record.read "Collections" (Record.withDefault "repositories" [] (Decoder.list repositoryDecoder))

def specDecoder : Decoder δ (Option (List CollectionEntry)) :=
  Record.read "KabaneroSpec" (Record.optionalAnywhere "collections" collectionsDecoder)

def metadataDecoder : Decoder δ String :=
  Record.read "KabaneroMetadata" (Record.withDefault "name" "" Decoder.text)

def decoder : Decoder δ Kabanero :=
  Record.read "Kabanero" (Kabanero.mk
    <$> Record.withDefault "metadata" "" metadataDecoder
    <*> Record.optionalAnywhere "spec" specDecoder)

/-- the items of a list of resources -/
def itemsDecoder {α : Type} (item : Decoder δ α) : Decoder δ (List α) :=
  Record.read "ObjectList" (Record.withDefault "items" [] (Decoder.list item))

end

def repositories (k : Kabanero) : List CollectionEntry := (k.spec.bind id).getD []

/-- the URL of a repository whose default collections are activated -/
def activeUrl? (r : CollectionEntry) : Option String :=
  if r.active = some true then r.url else none

/-- looks through instances and their repositories in order -/
def indexUrl? (instances : List Kabanero) : Option String :=
  (instances.flatMap repositories).findSome? activeUrl?

end Kabanero

namespace ClusterClient

def secrets (c : ClusterClient) (exchange : Http.Exchange) (space : String) :
    Except ClusterFault (List Secret) :=
  c.get exchange (Kabanero.itemsDecoder Secret.decoder) s!"/api/v1/namespaces/{space}/secrets"

/-- the secrets of a namespace, as a resolver asks for them -/
def secretsFor (c : ClusterClient) (exchange : Http.Exchange) (space : String) :
    Except RelayFault (List Secret) :=
  match c.secrets exchange space with
  | .ok secrets => .ok secrets
  | .error fault => .error fault.toRelay

def instances (c : ClusterClient) (exchange : Http.Exchange) (space : String) :
    Except ClusterFault (List Kabanero) :=
  c.get exchange (Kabanero.itemsDecoder Kabanero.decoder)
    s!"/apis/kabanero.io/v1alpha1/namespaces/{space}/kabaneros"

def indexUrl (c : ClusterClient) (exchange : Http.Exchange) (space : String) :
    Except ClusterFault String := do
  match Kabanero.indexUrl? (← c.instances exchange space) with
  | some url => return url
  | none => throw (.noIndex space)

end ClusterClient

end ForgeRelay
