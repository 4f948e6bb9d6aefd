import Mathlib.Data.List.Basic
import Mathlib.Tactic.Tauto
import ForgeRelay.Codec.Hex
import ForgeRelay.Proofs.Text.Letters

/-!
# Hexadecimal text in either case

`Hex.decode?` reads more than `Hex.encode` writes: each digit in either case.  Up to the case of its
letters a text that is read is the one that would be written.

* `value?_eq_some_iff`     a digit is read as the value it is written for in lower case;
* `decode?_eq_some_iff`    a text is read as the octets it writes in lower case;
* `decode?_eq_none_iff`    refused are odd lengths and characters that are no digits.
-/

namespace ForgeRelay.Hex

/-! ## digits -/

/-- the hexadecimal digits of either case -/
def alphabet : List Char :=
  ['0', '1', '2', '3', '4', '5', '6', '7', '8', '9', 'a', 'b', 'c', 'd', 'e', 'f',
    'A', 'B', 'C', 'D', 'E', 'F']

/-- the digit of a value below 16, with capital letters -/
def capital (n : Nat) : Char := if n < 10 then Char.ofNat (0x30 + n) else Char.ofNat (0x37 + n)

theorem toLower_digit : ∀ n < 16, (digit n).toLower = digit n := by decide
theorem toLower_capital : ∀ n < 16, (capital n).toLower = digit n := by decide
theorem value?_capital : ∀ n < 16, value? (capital n) = some n := by decide
theorem digit_mem_alphabet : ∀ n < 16, digit n ∈ alphabet := by decide
theorem capital_mem_alphabet : ∀ n < 16, capital n ∈ alphabet := by decide

theorem value?_ne_none_of_mem {c : Char} (h : c ∈ alphabet) : value? c ≠ none := by
  have hall : alphabet.all (fun c => (value? c).isSome) = true := by decide
  have hc := List.all_eq_true.1 hall c h
  exact Option.isSome_iff_ne_none.1 hc

theorem toNat_range {c : Char} {lo hi : Char} (h : lo ≤ c ∧ c ≤ hi) :
    lo.toNat ≤ c.toNat ∧ c.toNat ≤ hi.toNat := by
  rw [Char.le_def, Char.le_def, UInt32.le_iff_toNat_le, UInt32.le_iff_toNat_le] at h
  exact h

theorem cases_of_value? {c : Char} {n : Nat} (h : value? c = some n) :
    n < 16 ∧ (c = digit n ∨ c = capital n) := by
  unfold value? at h
  split at h
  · rename_i hc
    obtain ⟨hlo, hhi⟩ : 48 ≤ c.toNat ∧ c.toNat ≤ 57 := toNat_range hc
    cases h
    have hback : 0x30 + (c.toNat - 0x30) = c.toNat := by omega
    refine ⟨by omega, .inl ?_⟩
    rw [digit, if_pos (by omega), hback, Char.ofNat_toNat]
  · split at h
    · rename_i hc
      obtain ⟨hlo, hhi⟩ : 97 ≤ c.toNat ∧ c.toNat ≤ 102 := toNat_range hc
      cases h
      have hback : 0x57 + (c.toNat - 0x57) = c.toNat := by omega
      refine ⟨by omega, .inl ?_⟩
      rw [digit, if_neg (by omega), hback, Char.ofNat_toNat]
    · split at h
      · rename_i hc
        obtain ⟨hlo, hhi⟩ : 65 ≤ c.toNat ∧ c.toNat ≤ 70 := toNat_range hc
        cases h
        have hback : 0x37 + (c.toNat - 0x37) = c.toNat := by omega
        refine ⟨by omega, .inr ?_⟩
        rw [capital, if_neg (by omega), hback, Char.ofNat_toNat]
      · cases h

theorem value?_eq_none_iff {c : Char} : value? c = none ↔ c ∉ alphabet := by
  constructor
  · intro h hc
    exact value?_ne_none_of_mem hc h
  · intro hc
    cases h : value? c with
    | none => rfl
    | some n =>
      obtain ⟨hn, rfl | rfl⟩ := cases_of_value? h
      · exact absurd (digit_mem_alphabet n hn) hc
      · exact absurd (capital_mem_alphabet n hn) hc

/-- a character whose lower case is another one is a capital, 32 below it -/
theorem toLower_cases (c : Char) :
    c.toLower = c ∨ 65 ≤ c.toNat ∧ c.toLower.toNat = c.toNat + 32 := by
  have hcode := toNat_toLower c
  split at hcode
  · rename_i hrange
    exact .inr ⟨hrange.1, hcode⟩
  · exact .inl (Char.toNat_inj.1 hcode)

theorem ofNat_digit_sub : ∀ n < 16, 97 ≤ (digit n).toNat →
    Char.ofNat ((digit n).toNat - 32) = capital n := by decide

theorem value?_eq_some_iff {c : Char} {n : Nat} :
    value? c = some n ↔ n < 16 ∧ c.toLower = digit n := by
  constructor
  · intro h
    obtain ⟨hn, rfl | rfl⟩ := cases_of_value? h
    · exact ⟨hn, toLower_digit n hn⟩
    · exact ⟨hn, toLower_capital n hn⟩
  · rintro ⟨hn, hlower⟩
    rcases toLower_cases c with hc | ⟨hlo, hc⟩
    · rw [← hc, hlower]
      exact value?_digit n hn
    · rw [hlower] at hc
      have hcap := ofNat_digit_sub n hn (by omega)
      rw [hc, Nat.add_sub_cancel, Char.ofNat_toNat] at hcap
      rw [hcap]
      exact value?_capital n hn

/-! ## texts -/

theorem decode?_cons_cons_eq_some {c d : Char} {cs : List Char} {bs : Bytes} :
    decode? (c :: d :: cs) = some bs ↔
      ∃ m n as, value? c = some m ∧ value? d = some n ∧ decode? cs = some as ∧
        bs = (m * 16 + n).toUInt8 :: as := by
  rw [decode?]
  cases value? c <;> cases value? d <;> cases decode? cs <;> simp [eq_comm]

theorem decode?_cons_cons_eq_none {c d : Char} {cs : List Char} :
    decode? (c :: d :: cs) = none ↔ value? c = none ∨ value? d = none ∨ decode? cs = none := by
  rw [decode?]
  cases value? c <;> cases value? d <;> cases decode? cs <;> simp

theorem encode_of_decode? : ∀ {cs : List Char} {bs : Bytes}, decode? cs = some bs →
    cs.map Char.toLower = encode bs
  | [], _, h => by
    cases h
    rfl
  | [_], _, h => by cases h
  | c :: d :: cs, bs, h => by
    obtain ⟨m, n, as, hc, hd, hcs, rfl⟩ := decode?_cons_cons_eq_some.1 h
    obtain ⟨hm, hcm⟩ := value?_eq_some_iff.1 hc
    obtain ⟨hn, hdn⟩ := value?_eq_some_iff.1 hd
    have hoctet : (m * 16 + n).toUInt8.toNat = m * 16 + n := by
      rw [Nat.toUInt8_eq, UInt8.toNat_ofNat']
      omega
    have hhigh : (m * 16 + n) / 16 = m := by omega
    have hlow : (m * 16 + n) % 16 = n := by omega
    rw [List.map_cons, List.map_cons, encode_of_decode? hcs, encode_cons, hoctet, hhigh, hlow,
      hcm, hdn]

theorem decode?_of_encode {cs : List Char} {bs : Bytes} (h : cs.map Char.toLower = encode bs) :
    decode? cs = some bs := by
  induction bs generalizing cs with
  | nil =>
    rw [List.map_eq_nil_iff.1 h]
    rfl
  | cons b bs ih =>
    rw [encode_cons] at h
    obtain ⟨c, rest, rfl, hc, h⟩ := List.map_eq_cons_iff.1 h
    obtain ⟨d, cs, rfl, hd, h⟩ := List.map_eq_cons_iff.1 h
    have hb := b.toNat_lt
    have hback : b.toNat / 16 * 16 + b.toNat % 16 = b.toNat := by omega
    refine decode?_cons_cons_eq_some.2 ⟨b.toNat / 16, b.toNat % 16, bs, ?_, ?_, ih h, ?_⟩
    · exact value?_eq_some_iff.2 ⟨by omega, hc⟩
    · exact value?_eq_some_iff.2 ⟨by omega, hd⟩
    · rw [hback, Nat.toUInt8_eq, UInt8.ofNat_toNat]

theorem decode?_eq_some_iff {cs : List Char} {bs : Bytes} :
    decode? cs = some bs ↔ cs.map Char.toLower = encode bs :=
  ⟨encode_of_decode?, decode?_of_encode⟩

theorem decode?_eq_none_iff : ∀ {cs : List Char},
    decode? cs = none ↔ cs.length % 2 = 1 ∨ ∃ c ∈ cs, c ∉ alphabet
  | [] => by simp [decode?]
  | [c] => by simp [decode?]
  | c :: d :: cs => by
    have hlength : (c :: d :: cs).length % 2 = cs.length % 2 := Nat.add_mod_right cs.length 2
    rw [decode?_cons_cons_eq_none, value?_eq_none_iff, value?_eq_none_iff, decode?_eq_none_iff,
      hlength, List.exists_mem_cons_iff, List.exists_mem_cons_iff]
    tauto

/-- what is written is in lower case -/
theorem toLower_encode (bs : Bytes) : (encode bs).map Char.toLower = encode bs :=
  encode_of_decode? (decode?_encode bs)

theorem mem_alphabet_of_mem_encode {c : Char} {bs : Bytes} (h : c ∈ encode bs) : c ∈ alphabet := by
  induction bs with
  | nil => cases h
  | cons b bs ih =>
    have hb := b.toNat_lt
    rw [encode_cons, List.mem_cons, List.mem_cons] at h
    rcases h with rfl | rfl | h
    · exact digit_mem_alphabet _ (by omega)
    · exact digit_mem_alphabet _ (by omega)
    · exact ih h

end ForgeRelay.Hex
