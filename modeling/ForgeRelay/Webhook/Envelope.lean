import ForgeRelay.Http.Basic
import ForgeRelay.Json.Document
import ForgeRelay.Json.Writer
import ForgeRelay.Webhook.Fault

/-!
# Envelopes

An envelope is what is published for a webhook: its headers, with all values of each, and its body.
Header names are stored in one spelling (`canonicalName`), so that they can be looked up in any.
`Envelope.wire` is the published text and `Envelope.read` reads it.
-/

namespace ForgeRelay

/-! ## header names -/

/-- spells a name; `upper` says whether the next letter is a capital -/
def canonicalFrom : (upper : Bool) → List Char → List Char
  | _, [] => []
  | upper, c :: cs => (if upper then c.toUpper else c.toLower) :: canonicalFrom (c = '-') cs

/-- capitals at the start and after each hyphen, small letters elsewhere; only ASCII letters
change -/
def canonicalName (name : String) : String := String.ofList (canonicalFrom true name.toList)

structure Envelope where
  header : StringMap (List String)
  body : Json

namespace Envelope

/-! ## headers -/

/-- adds a value at the end of those of its name -/
def addHeader (header : StringMap (List String)) (name value : String) :
    StringMap (List String) :=
  let key := canonicalName name
  header.insert key ((header.get? key).getD [] ++ [value])

/-- values that are no UTF-8 are kept as well as they can be -/
def collectHeaders (headers : Http.Headers) : StringMap (List String) :=
  headers.foldl (fun header h => addHeader header h.1 (Utf8.lossy h.2)) StringMap.empty

def ofRequest (headers : Http.Headers) (body : List (String × Json)) : Envelope :=
  ⟨collectHeaders headers, .obj body⟩

/-- the first value of a header -/
def header? (e : Envelope) (name : String) : Option String :=
  (e.header.get? (canonicalName name)).bind List.head?

def eventType? (e : Envelope) : Option String := e.header? "X-Github-Event"

def enterpriseHost? (e : Envelope) : Option String := e.header? "X-Github-Enterprise-Host"

/-! ## the wire -/

def headerJson (header : StringMap (List String)) : Json :=
  .obj (header.entries.map fun h => (h.1, .arr (h.2.map .str)))

def wire (e : Envelope) : Bytes :=
  (Json.obj [("header", headerJson e.header), ("body", e.body)]).write

def decoder : Decoder Json.Part Envelope :=
  Record.read "Envelope" (Envelope.mk
    <$> Record.required "header" (Decoder.map (Decoder.list Decoder.text))
    <*> Record.required "body" Json.Part.json)

def read (payload : Bytes) : Except WebhookFault Envelope :=
  match Json.decode decoder payload with
  | .ok e => .ok e
  | .error why => .error (.malformed why.message)

end Envelope

end ForgeRelay
