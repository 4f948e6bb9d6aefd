import ForgeRelay.Credential.Sealed

/-!
# Resolving credentials

A resolver finds the credential for a repository among the secrets of a namespace: of the usable
records that match its URL the first one decides.  `Reuse` says whether a listing of the secrets is
kept, to be used again while it is younger than a limit.

A resolution takes three steps, between which other things may happen: a look at the kept listing
(`fresh?`), a listing of the secrets if there is none, and the keeping of it (`keep`).
-/

namespace ForgeRelay

inductive Reuse where
  /-- secrets are listed each time -/
  | never
  /-- a listing is used while it is younger than this -/
  | within (limit : Duration)
  deriving DecidableEq, Repr

def Reuse.ofSecs (secs : Nat) : Reuse :=
  if secs = 0 then .never else .within (.ofSecs secs)

structure Listing where
  /-- when it was taken, in nanoseconds -/
  takenAt : Nat
  records : List SealedCredential
  deriving DecidableEq, Repr

structure Resolver where
  space : String
  reuse : Reuse
  listing : Option Listing
  deriving DecidableEq, Repr

namespace Resolver

def new (space : String) (reuse : Reuse) : Resolver := ⟨space, reuse, none⟩

/-- the credential that a list of records has for a repository -/
def answer (records : List SealedCredential) (url : String) : Except RelayFault Credential :=
  match records.find? fun r => (r.patternFor? url).isSome && r.isComplete with
  | some r => r.decode
  | none => .error (.notFound url)

/-- the records of the kept listing, if it can still be used -/
def fresh? (r : Resolver) (now : Nat) : Option (List SealedCredential) :=
  match r.reuse, r.listing with
  | .within limit, some l => if now - l.takenAt < limit.nanos then some l.records else none
  | _, _ => none

def keep (r : Resolver) (now : Nat) (records : List SealedCredential) : Resolver :=
  match r.reuse with
  | .within _ => { r with listing := some ⟨now, records⟩ }
  | .never => r

def invalidate (r : Resolver) : Resolver := { r with listing := none }

theorem fresh?_invalidate (r : Resolver) (now : Nat) : r.invalidate.fresh? now = none := by
  unfold fresh? invalidate
  cases r.reuse <;> rfl

/-- a listing that was kept lasts as long as the limit says, counted from when it was taken -/
theorem fresh?_keep (r : Resolver) (takenAt now : Nat) (records : List SealedCredential) :
    (r.keep takenAt records).fresh? now = match r.reuse with
      | .never => none
      | .within limit => if now - takenAt < limit.nanos then some records else none := by
  obtain ⟨space, reuse, listing⟩ := r
  cases reuse <;> rfl

/-- what a resolution did -/
structure Resolution where
  answer : Except RelayFault Credential
  resolver : Resolver
  /-- whether the secrets were listed -/
  listed : Bool

def resolve (r : Resolver) (now : Nat)
    (list : (space : String) → Except RelayFault (List Secret)) (url : String) : Resolution :=
  match r.fresh? now with
  | some records => ⟨answer records url, r, false⟩
  | none =>
    match list r.space with
    | .error fault => ⟨.error fault, r, true⟩
    | .ok secrets =>
      let records := secrets.map SealedCredential.ofSecret
      ⟨answer records url, r.keep now records, true⟩

end Resolver

end ForgeRelay
