import ForgeRelay.Bytes

/-!
# HTTP messages

Requests that come in with the responses to them, and calls that go out with the replies to them.
Header names are kept in lower case.  How a call is carried out is for an `Exchange` to say.
-/

namespace ForgeRelay.Http

/-- header names in lower case with their values, in order; names may repeat -/
abbrev Headers := List (String × Bytes)

/-- the first value of a header, which is named in lower case -/
def Headers.first? (headers : Headers) (name : String) : Option Bytes :=
  (headers.find? (·.1 = name)).map Prod.snd

structure Request where
  method : String
  path : String
  headers : Headers
  body : Bytes
  deriving DecidableEq, Repr

structure Response where
  status : Nat
  contentType : Option String
  /-- the methods that a path allows -/
  allow : Option String
  body : Bytes
  deriving DecidableEq, Repr

/-! ## calls -/

inductive Authorization where
  | none
  | bearer (token : String)
  | basic (username token : String)
  deriving DecidableEq, Repr

/-- a request that goes out, which has no body -/
structure Call where
  method : String
  url : String
  query : List (String × String)
  authorization : Authorization
  accept : String
  userAgent : Option String
  deriving DecidableEq, Repr

structure Reply where
  status : Nat
  body : Bytes
  deriving DecidableEq, Repr

inductive CallFault where
  | timeout
  | failed (reason : String)
  deriving DecidableEq, Repr

def CallFault.reason : CallFault → String
  | .timeout => "operation timed out"
  | .failed reason => reason

abbrev Exchange := Call → Except CallFault Reply

end ForgeRelay.Http
