import ForgeRelay.Document.Basic

/-!
# Secrets

A secret has a name within a namespace, annotations, and data that are kept in base64.
-/

namespace ForgeRelay

structure Secret where
  name : String
  space : String
  annotations : StringMap String
  /-- values in base64 -/
  data : StringMap String
  deriving DecidableEq

namespace Secret

variable {δ : Type} [Document δ]

/-- name, namespace and annotations -/
def metadataDecoder : Decoder δ (String × String × StringMap String) :=
  Record.read "SecretMetadata" ((fun name space annotations => (name, space, annotations))
    <$> Record.required "name" Decoder.text
    <*> Record.withDefault "namespace" "" Decoder.text
    <*> Record.withDefault "annotations" StringMap.empty (Decoder.map Decoder.text))

def decoder : Decoder δ Secret :=
  Record.read "SecretObject" ((fun m data => ⟨m.1, m.2.1, m.2.2, data⟩)
    <$> Record.required "metadata" metadataDecoder
    <*> Record.withDefault "data" StringMap.empty (Decoder.map Decoder.text))

end Secret

end ForgeRelay
