import ForgeRelay.Json.Numeral
import ForgeRelay.Json.Writer

/-!
# Written integers are read back

An integer is written with its sign and its decimal digits.  `Numeral.ofInt` is the numeral it is
read as: without point and exponent, and with all its digits taken as long as the number stays below
2^64.

* `ascii_toDigits_ne_zero_cons`   no digit follows a zero in front;
* `numeral?_writeInt`             a written integer is read over, up to what `Stops` a numeral;
* `number?_ofInt`                 the numeral of an integer of the exact range is that integer.
-/

namespace ForgeRelay.Json

/-! ## the digits of a number -/

theorem toNat_of_isDigit {c : Char} (h : c.isDigit) :
    48 ≤ c.toNat ∧ c.toNat ≤ 57 ∧ c.toNat.toUInt8.toNat = c.toNat := by
  have hc : 48 ≤ c.toNat ∧ c.toNat ≤ 57 := by
    simpa [Char.isDigit, UInt32.le_iff_toNat_le] using h
  refine ⟨hc.1, hc.2, ?_⟩
  rw [Nat.toUInt8_eq, UInt8.toNat_ofNat']
  omega

theorem isDigit_of_mem_ascii {cs : List Char} (h : ∀ c ∈ cs, c.isDigit) {b : UInt8}
    (hb : b ∈ Bytes.ascii cs) : Ascii.isDigit b := by
  obtain ⟨c, hc, rfl⟩ := List.mem_map.1 hb
  obtain ⟨h1, h2, h3⟩ := toNat_of_isDigit (h c hc)
  unfold Ascii.isDigit
  rw [Bool.and_eq_true, decide_eq_true_iff, decide_eq_true_iff, UInt8.le_iff_toNat_le,
    UInt8.le_iff_toNat_le, h3]
  exact ⟨h1, h2⟩

theorem le_ofDigitChars (cs : List Char) (n : Nat) : n ≤ Nat.ofDigitChars 10 cs n := by
  induction cs generalizing n with
  | nil => exact Nat.le_of_eq Nat.ofDigitChars_nil.symm
  | cons c cs ih =>
    rw [Nat.ofDigitChars_cons]
    have := ih (10 * n + (c.toNat - '0'.toNat))
    omega

theorem absorb_ascii {cs : List Char} (h : ∀ c ∈ cs, c.isDigit) (n : Nat)
    (hlt : Nat.ofDigitChars 10 cs n < 0x10000000000000000) :
    absorb n (Bytes.ascii cs) = (Nat.ofDigitChars 10 cs n, []) := by
  induction cs generalizing n with
  | nil =>
    rw [Nat.ofDigitChars_nil]
    rfl
  | cons c cs ih =>
    have hv : n * 10 + digitValue c.toNat.toUInt8 = 10 * n + (c.toNat - '0'.toNat) := by
      rw [digitValue, (toNat_of_isDigit (h c (List.mem_cons_self ..))).2.2, Nat.mul_comm]
      rfl
    rw [Nat.ofDigitChars_cons] at hlt ⊢
    have hle := le_ofDigitChars cs (10 * n + (c.toNat - '0'.toNat))
    rw [Bytes.ascii_cons, absorb, hv, if_pos (by omega)]
    exact ih (fun c hc => h c (List.mem_cons_of_mem _ hc)) _ hlt

theorem isDigit_toDigits (n : Nat) : ∀ c ∈ Nat.toDigits 10 n, c.isDigit := fun _ hc =>
  Nat.isDigit_of_mem_toDigits (by decide) (by decide) hc

/-- only zero is written with a zero in front -/
theorem head?_toDigits_ne_zero (n : Nat) (h : 0 < n) :
    (Nat.toDigits 10 n).head? ≠ some '0' := by
  induction n using Nat.strongRecOn with
  | ind n ih =>
    by_cases hn : n < 10
    · rw [Nat.toDigits_of_lt_base hn, List.head?_cons]
      intro h0
      have := Nat.digitChar_eq_zero.1 (Option.some.inj h0)
      omega
    · have hd := ih (n / 10) (by omega) (by omega)
      rw [Nat.toDigits_of_base_le (by decide) (by omega), List.head?_append]
      cases hc : (Nat.toDigits 10 (n / 10)).head? with
      | none => exact absurd (List.head?_eq_none_iff.1 hc) Nat.toDigits_ne_nil
      | some c =>
        rw [hc] at hd
        exact hd

theorem ascii_toDigits_ne_zero_cons (n : Nat) (d : UInt8) (ds : Bytes) :
    Bytes.ascii (Nat.toDigits 10 n) ≠ Ascii.zero :: d :: ds := by
  intro h
  by_cases hn : 0 < n
  · obtain ⟨c, cs, hc⟩ := List.exists_cons_of_ne_nil (Nat.toDigits_ne_nil (n := n) (b := 10))
    rw [hc, Bytes.ascii_cons] at h
    have hd : c.isDigit := isDigit_toDigits n c (by rw [hc]; exact List.mem_cons_self ..)
    have hv := (toNat_of_isDigit hd).2.2
    rw [(List.cons.inj h).1] at hv
    have h0 : c = '0' := by
      rw [← Char.ofNat_toNat c, ← hv]
      rfl
    refine head?_toDigits_ne_zero n hn ?_
    rw [hc, h0]
    rfl
  · rw [Nat.eq_zero_of_not_pos hn] at h
    cases h

/-! ## reading the digits -/

/-- nothing in front can go on a numeral -/
def Stops : Bytes → Prop
  | [] => True
  | b :: _ => Ascii.isDigit b = false ∧ b ≠ Ascii.dot ∧ b ≠ Ascii.e ∧ b ≠ Ascii.upperE

theorem takeWhile_digits {ds rest : Bytes} (hd : ∀ d ∈ ds, Ascii.isDigit d) (hr : Stops rest) :
    (ds ++ rest).takeWhile Ascii.isDigit = ds := by
  rw [List.takeWhile_append_of_pos hd]
  cases rest with
  | nil => rw [List.takeWhile_nil, List.append_nil]
  | cons b rest => rw [List.takeWhile_cons_of_neg (by rw [hr.1]; decide), List.append_nil]

theorem dropWhile_digits {ds rest : Bytes} (hd : ∀ d ∈ ds, Ascii.isDigit d) (hr : Stops rest) :
    (ds ++ rest).dropWhile Ascii.isDigit = rest := by
  rw [List.dropWhile_append_of_pos hd]
  cases rest with
  | nil => rfl
  | cons b rest => rw [List.dropWhile_cons_of_neg (by rw [hr.1]; decide)]

theorem numeralTail?_of_stops {rest : Bytes} (h : Stops rest) (negative : Bool) (whole : Bytes) :
    numeralTail? negative whole rest = some (⟨negative, whole, [], none⟩, rest) := by
  cases rest with
  | nil => rfl
  | cons b rest =>
    obtain ⟨-, hdot, he, hE⟩ := h
    unfold numeralTail?
    split
    · rename_i h
      exact absurd (List.cons.inj h).1 hdot
    · simp only [Option.bind_eq_bind, Option.bind_some]
      split
      · rename_i h
        exact absurd (List.cons.inj h).1 he
      · rename_i h
        exact absurd (List.cons.inj h).1 hE
      · rfl

theorem unsigned?_digits (negative : Bool) {whole rest : Bytes} (hne : whole ≠ [])
    (hz : ∀ d ds, whole ≠ Ascii.zero :: d :: ds) (hd : ∀ d ∈ whole, Ascii.isDigit d)
    (hr : Stops rest) :
    unsigned? negative (whole ++ rest) = some (⟨negative, whole, [], none⟩, rest) := by
  unfold unsigned?
  rw [takeWhile_digits hd hr, dropWhile_digits hd hr]
  split
  · exact absurd rfl hne
  · exact absurd rfl (hz _ _)
  · exact numeralTail?_of_stops hr negative whole

theorem numeral?_of_ne_minus {d : UInt8} (h : d ≠ Ascii.minus) (bs : Bytes) :
    numeral? (d :: bs) = unsigned? false (d :: bs) := by
  unfold numeral?
  split
  · rename_i he
    exact absurd (List.cons.inj he).1 h
  · rfl

/-- a sign and digits are read over as a numeral without point and exponent -/
theorem numeral?_digits (negative : Bool) {whole rest : Bytes} (hne : whole ≠ [])
    (hz : ∀ d ds, whole ≠ Ascii.zero :: d :: ds) (hd : ∀ d ∈ whole, Ascii.isDigit d)
    (hr : Stops rest) :
    numeral? ((bif negative then [Ascii.minus] else []) ++ whole ++ rest)
      = some (⟨negative, whole, [], none⟩, rest) := by
  have h := unsigned?_digits negative hne hz hd hr
  cases negative with
  | true => exact h
  | false =>
    obtain ⟨d, ds, rfl⟩ := List.exists_cons_of_ne_nil hne
    have hm : d ≠ Ascii.minus := by
      rintro rfl
      exact absurd (hd _ (List.mem_cons_self ..)) (by decide)
    exact (numeral?_of_ne_minus hm (ds ++ rest)).trans h

/-! ## integers -/

/-- the numeral that writes an integer -/
def Numeral.ofInt (n : Int) : Numeral :=
  ⟨decide (n < 0), Bytes.ascii (Nat.toDigits 10 n.natAbs), [], none⟩

theorem writeInt_eq (n : Int) :
    writeInt n = (bif decide (n < 0) then [Ascii.minus] else [])
      ++ Bytes.ascii (Nat.toDigits 10 n.natAbs) := by
  cases n with
  | ofNat m => rfl
  | negSucc m =>
    rw [decide_eq_true (Int.negSucc_lt_zero m)]
    rfl

theorem head_writeInt (n : Int) :
    ∃ b bs, writeInt n = b :: bs ∧ (Ascii.isDigit b ∨ b = Ascii.minus) := by
  obtain ⟨c, cs, hc⟩ :=
    List.exists_cons_of_ne_nil (Nat.toDigits_ne_nil (n := n.natAbs) (b := 10))
  rw [writeInt_eq, hc]
  cases decide (n < 0) with
  | true => exact ⟨_, _, rfl, .inr rfl⟩
  | false =>
    have hcs : ∀ c' ∈ c :: cs, c'.isDigit := by
      rw [← hc]
      exact isDigit_toDigits n.natAbs
    exact ⟨_, _, rfl, .inl (isDigit_of_mem_ascii hcs (List.mem_cons_self ..))⟩

theorem numeral?_writeInt (n : Int) {rest : Bytes} (hr : Stops rest) :
    numeral? (writeInt n ++ rest) = some (Numeral.ofInt n, rest) := by
  rw [writeInt_eq]
  refine numeral?_digits _ ?_ (ascii_toDigits_ne_zero_cons _)
    (fun _ => isDigit_of_mem_ascii (isDigit_toDigits _)) hr
  intro h
  exact Nat.toDigits_ne_nil (List.map_eq_nil_iff.1 h)

theorem number?_ofInt {n : Int} (h : (Number.int n).Exact) :
    (Numeral.ofInt n).number? = some (.int n) := by
  obtain ⟨hl, hu⟩ := h
  have ha : absorb 0 (Bytes.ascii (Nat.toDigits 10 n.natAbs)) = (n.natAbs, []) := by
    rw [absorb_ascii (isDigit_toDigits _) _ (by rw [Nat.ofDigitChars_ten_toDigits]; omega),
      Nat.ofDigitChars_ten_toDigits]
  have hi : integer (decide (n < 0)) n.natAbs = .int n := by
    unfold integer
    by_cases hn : n < 0
    · rw [decide_eq_true hn, if_neg (by decide), if_neg (by omega)]
      congr 1
      omega
    · rw [decide_eq_false hn, if_pos (by decide)]
      congr 1
      omega
  unfold Numeral.number? Numeral.ofInt
  rw [ha]
  show some (integer (decide (n < 0)) n.natAbs) = _
  rw [hi]

end ForgeRelay.Json
