import ForgeRelay.Credential.Secret
import ForgeRelay.Relay.Fault

/-!
# Vaults

A vault keeps secrets in memory, in the order in which they came.  A secret takes the place of one
of the same name in its namespace.  While a vault is made unavailable its secrets cannot be listed.
-/

namespace ForgeRelay

structure Vault where
  secrets : List Secret
  /-- why secrets cannot be listed -/
  unavailable : Option String
  deriving DecidableEq

namespace Vault

def empty : Vault := ⟨[], none⟩

def Same (a b : Secret) : Prop := a.space = b.space ∧ a.name = b.name

instance (a b : Secret) : Decidable (Same a b) := inferInstanceAs (Decidable (_ ∧ _))

/-- puts a secret in the place of the one of its name, or at the end -/
def place (s : Secret) : List Secret → List Secret
  | [] => [s]
  | t :: rest => if Same s t then s :: rest else t :: place s rest

def insert (v : Vault) (s : Secret) : Vault := { v with secrets := place s v.secrets }

/-- the secrets of a namespace, in order -/
def contents (v : Vault) (space : String) : List Secret :=
  v.secrets.filter (·.space = space)

def find? (v : Vault) (space name : String) : Option Secret :=
  v.secrets.find? fun s => s.space = space ∧ s.name = name

/-- takes a secret out, the first one of the name -/
def remove (v : Vault) (space name : String) : Option Secret × Vault :=
  (v.find? space name,
    { v with secrets := v.secrets.eraseP fun s => s.space = space ∧ s.name = name })

def clear (v : Vault) : Vault := { v with secrets := [] }

def count (v : Vault) (space : String) : Nat := (v.contents space).length

def setUnavailable (v : Vault) (reason : Option String) : Vault := { v with unavailable := reason }

def list (v : Vault) (space : String) : Except RelayFault (List Secret) :=
  match v.unavailable with
  | some reason => .error (.backend reason)
  | none => .ok (v.contents space)

end Vault

end ForgeRelay
