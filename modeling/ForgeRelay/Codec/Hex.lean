import ForgeRelay.Bytes

/-!
# Hexadecimal text

`Hex.encode` writes two lower case digits for each octet; `Hex.decode?` reads digits of either
case, two for each octet, and nothing else.
-/

namespace ForgeRelay.Hex

/-- the lower case digit of a value below 16 -/
def digit (n : Nat) : Char := if n < 10 then Char.ofNat (0x30 + n) else Char.ofNat (0x57 + n)

def value? (c : Char) : Option Nat :=
  if '0' ≤ c ∧ c ≤ '9' then some (c.toNat - 0x30)
  else if 'a' ≤ c ∧ c ≤ 'f' then some (c.toNat - 0x57)
  else if 'A' ≤ c ∧ c ≤ 'F' then some (c.toNat - 0x37)
  else none

def encode : Bytes → List Char
  | [] => []
  | b :: bs => digit (b.toNat / 16) :: digit (b.toNat % 16) :: encode bs

def decode? : List Char → Option Bytes
  | [] => some []
  | [_] => none
  | c :: d :: cs =>
    match value? c, value? d, decode? cs with
    | some m, some n, some bs => some ((m * 16 + n).toUInt8 :: bs)
    | _, _, _ => none

theorem encode_cons (b : UInt8) (bs : Bytes) :
    encode (b :: bs) = digit (b.toNat / 16) :: digit (b.toNat % 16) :: encode bs := rfl

theorem length_encode (bs : Bytes) : (encode bs).length = 2 * bs.length := by
  induction bs with
  | nil => rfl
  | cons b bs ih => simp [encode_cons, ih]; omega

theorem value?_digit : ∀ n < 16, value? (digit n) = some n := by decide

theorem decode?_encode (bs : Bytes) : decode? (encode bs) = some bs := by
  induction bs with
  | nil => rfl
  | cons b bs ih =>
    have hb := b.toNat_lt
    have h : b.toNat / 16 * 16 + b.toNat % 16 = b.toNat := by omega
    rw [encode_cons, decode?, value?_digit _ (by omega), value?_digit _ (by omega), ih]
    simp [h]

end ForgeRelay.Hex
