import ForgeRelay.Codec.Hex
import ForgeRelay.Digest.Hmac
import ForgeRelay.Text.Blank
import ForgeRelay.Text.Utf8

/-!
# Signatures

A webhook is signed with the HMAC of its body under a shared secret.  The signature is written in
hexadecimal behind the name of the digest: `Signature.header`.  `verify` takes a header with
blanks around it and digits of either case, and nothing else.
-/

namespace ForgeRelay

inductive SignatureFault where
  | format
  | mismatch
  | key
  deriving DecidableEq, Repr

def SignatureFault.message : SignatureFault → String
  | .format => "Invalid signature format"
  | .mismatch => "Invalid signature"
  | .key => "Invalid signing key"

namespace Signature

/-- the header that carries a signature -/
def headerName : String := "x-hub-signature-256"

/-- what a signature begins with -/
def scheme : List Char := ['s', 'h', 'a', '2', '5', '6', '=']

def mac (secret : String) (payload : Bytes) : Bytes := Hmac.sha256 (Utf8.encode secret) payload

def sign (secret : String) (payload : Bytes) : String :=
  String.ofList (Hex.encode (mac secret payload))

def header (secret : String) (payload : Bytes) : String :=
  String.ofList (scheme ++ Hex.encode (mac secret payload))

/-- the octets of a signature, which follow the scheme -/
def octets? (cs : List Char) : Option Bytes :=
  if scheme.isPrefixOf cs then Hex.decode? (cs.drop scheme.length) else none

def verify (secret : String) (header : String) (payload : Bytes) : Except SignatureFault Unit :=
  match octets? (trimmed header) with
  | none => .error .format
  | some bs => if bs = mac secret payload then .ok () else .error .mismatch

end Signature

end ForgeRelay
