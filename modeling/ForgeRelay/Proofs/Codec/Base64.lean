import ForgeRelay.Codec.Base64
import ForgeRelay.Proofs.Chains
import ForgeRelay.Text.Utf8

/-!
# Strict base64 reads what is written

`Base64.encode` writes sextets: `sextets` are their values, three octets giving four of them, and
`padding` fills the last quad.  `Base64.decode` takes the quads before the last apart from the last
one, and refuses whatever it would not have written itself.

* `value?_eq_some_iff`   a symbol is read as the value it is written for;
* `sextets_tailOctets`   values whose spare bits are zero are the sextets of their octets;
* `quads_eq_ok_iff`      full quads are read as the octets that write them;
* `lastQuad_eq_ok_iff`   and so is the last quad, with its padding;
* `decode_eq_ok_iff`     a text is read as certain octets iff it is what they are written as;
* `Writes.text_eq`, `writes_text`   octets have one writing, and it is a text.
-/

namespace ForgeRelay.Base64

/-! ## the alphabet -/

theorem symbol_ne_equals : ∀ n < 64, symbol n ≠ Ascii.equals := by decide

theorem symbol_visible : ∀ n < 64, 0x20 < symbol n ∧ symbol n < 0x7f := by decide

theorem between_iff {lo hi b : UInt8} :
    (decide (lo ≤ b) && decide (b ≤ hi)) = true ↔ lo.toNat ≤ b.toNat ∧ b.toNat ≤ hi.toNat := by
  rw [Bool.and_eq_true, decide_eq_true_eq, decide_eq_true_eq, UInt8.le_iff_toNat_le,
    UInt8.le_iff_toNat_le]

theorem toUInt8_of_eq {n : Nat} {b : UInt8} (h : n = b.toNat) : n.toUInt8 = b := by
  subst h
  rw [Nat.toUInt8_eq, UInt8.ofNat_toNat]

theorem symbol_of_value? {b : UInt8} {n : Nat} (h : value? b = some n) : n < 64 ∧ b = symbol n := by
  unfold value? at h
  split at h
  · rename_i hb
    obtain ⟨hlo, hhi⟩ : 0x41 ≤ b.toNat ∧ b.toNat ≤ 0x5a := between_iff.1 hb
    cases h
    refine ⟨by omega, ?_⟩
    rw [symbol, if_pos (by omega), toUInt8_of_eq (b := b) (by omega)]
  · split at h
    · rename_i hb
      obtain ⟨hlo, hhi⟩ : 0x61 ≤ b.toNat ∧ b.toNat ≤ 0x7a := between_iff.1 hb
      cases h
      refine ⟨by omega, ?_⟩
      rw [symbol, if_neg (by omega), if_pos (by omega), toUInt8_of_eq (b := b) (by omega)]
    · split at h
      · rename_i hb
        obtain ⟨hlo, hhi⟩ : 0x30 ≤ b.toNat ∧ b.toNat ≤ 0x39 := between_iff.1 hb
        cases h
        refine ⟨by omega, ?_⟩
        rw [symbol, if_neg (by omega), if_neg (by omega), if_pos (by omega),
          toUInt8_of_eq (b := b) (by omega)]
      · split at h
        · rename_i hb
          cases h
          exact ⟨by omega, hb⟩
        · split at h
          · rename_i hb
            cases h
            exact ⟨by omega, hb⟩
          · cases h

theorem value?_eq_some_iff {b : UInt8} {n : Nat} : value? b = some n ↔ n < 64 ∧ b = symbol n := by
  constructor
  · exact symbol_of_value?
  · rintro ⟨hn, rfl⟩
    exact value?_symbol n hn

/-- reading symbols is reading their values -/
theorem values_eq_ok_iff {offset : Nat} {bs : Bytes} {vs : List Nat} :
    values offset bs = .ok vs ↔ (∀ v ∈ vs, v < 64) ∧ bs = vs.map symbol := by
  induction bs generalizing offset vs with
  | nil =>
    constructor
    · intro h
      cases h
      exact ⟨by simp, rfl⟩
    · rintro ⟨-, h⟩
      rw [List.map_eq_nil_iff.1 h.symm]
      rfl
  | cons b bs ih =>
    constructor
    · intro h
      unfold values at h
      split at h
      · cases h
      · rename_i v hv
        cases hvs : values (offset + 1) bs with
        | error fault =>
          rw [hvs] at h
          cases h
        | ok rest =>
          rw [hvs] at h
          cases h
          obtain ⟨hlt, rfl⟩ := value?_eq_some_iff.1 hv
          obtain ⟨hrest, rfl⟩ := ih.1 hvs
          exact ⟨List.forall_mem_cons.2 ⟨hlt, hrest⟩, rfl⟩
    · rintro ⟨hlt, h⟩
      obtain ⟨v, rest, rfl, hv, hrest⟩ := List.map_eq_cons_iff.1 h.symm
      obtain ⟨hvlt, hrestlt⟩ := List.forall_mem_cons.1 hlt
      have hread : value? b = some v := value?_eq_some_iff.2 ⟨hvlt, hv.symm⟩
      unfold values
      rw [hread, ih.2 ⟨hrestlt, hrest.symm⟩]
      rfl

/-! ## sextets -/

/-- the values of the symbols that octets are written with -/
def sextets : Bytes → List Nat
  | [] => []
  | [a] => [a.toNat / 4, a.toNat % 4 * 16]
  | [a, b] => [a.toNat / 4, a.toNat % 4 * 16 + b.toNat / 16, b.toNat % 16 * 4]
  | a :: b :: c :: rest =>
    a.toNat / 4 :: (a.toNat % 4 * 16 + b.toNat / 16) :: (b.toNat % 16 * 4 + c.toNat / 64) ::
      c.toNat % 64 :: sextets rest

/-- what fills the last quad -/
def padding (bs : Bytes) : Bytes := List.replicate ((3 - bs.length % 3) % 3) Ascii.equals

theorem padding_of_full {bs : Bytes} (h : bs.length % 3 = 0) : padding bs = [] := by
  unfold padding
  rw [h]
  rfl

theorem padding_cons_cons_cons (a b c : UInt8) (rest : Bytes) :
    padding (a :: b :: c :: rest) = padding rest := by
  have hlength : (a :: b :: c :: rest).length % 3 = rest.length % 3 :=
    Nat.add_mod_right rest.length 3
  unfold padding
  rw [hlength]

theorem encode_eq : ∀ bs : Bytes, encode bs = (sextets bs).map symbol ++ padding bs
  | [] => rfl
  | [_] => rfl
  | [_, _] => rfl
  | a :: b :: c :: rest => by
    rw [encode, sextets, encode_eq rest, padding_cons_cons_cons]
    rfl

theorem sextets_lt : ∀ bs : Bytes, ∀ v ∈ sextets bs, v < 64
  | [] => by simp [sextets]
  | [a] => by
    have ha := a.toNat_lt
    simp only [sextets, List.forall_mem_cons]
    exact ⟨by omega, by omega, by simp⟩
  | [a, b] => by
    have ha := a.toNat_lt
    have hb := b.toNat_lt
    simp only [sextets, List.forall_mem_cons]
    exact ⟨by omega, by omega, by omega, by simp⟩
  | a :: b :: c :: rest => by
    have ha := a.toNat_lt
    have hb := b.toNat_lt
    have hc := c.toNat_lt
    simp only [sextets, List.forall_mem_cons]
    exact ⟨by omega, by omega, by omega, by omega, sextets_lt rest⟩

theorem encode_append : ∀ {front : Bytes} (back : Bytes), front.length % 3 = 0 →
    encode (front ++ back) = encode front ++ encode back
  | [], _, _ => rfl
  | [_], _, h => by cases h
  | [_, _], _, h => by cases h
  | a :: b :: c :: rest, back, h => by
    have hrest : rest.length % 3 = 0 := by
      rw [← h]
      exact (Nat.add_mod_right rest.length 3).symm
    show encode (a :: b :: c :: (rest ++ back)) = _
    rw [encode, encode_append back hrest, encode]
    rfl

theorem length_encode : ∀ bs : Bytes, (encode bs).length = (bs.length + 2) / 3 * 4
  | [] => rfl
  | [_] => by simp [encode]
  | [_, _] => by simp [encode]
  | a :: b :: c :: rest => by
    have ih := length_encode rest
    rw [encode]
    simp only [List.length_cons, ih]
    omega

theorem encode_eq_nil_iff {bs : Bytes} : encode bs = [] ↔ bs = [] := by
  constructor
  · intro h
    have hlength := length_encode bs
    rw [h, List.length_nil] at hlength
    exact List.length_eq_zero_iff.1 (by omega)
  · rintro rfl
    rfl

/-- what is written are visible characters of ASCII -/
theorem visible_of_mem_encode {bs : Bytes} {b : UInt8} (h : b ∈ encode bs) :
    0x20 < b ∧ b < 0x7f := by
  rw [encode_eq] at h
  rcases List.mem_append.1 h with h | h
  · obtain ⟨v, hv, rfl⟩ := List.mem_map.1 h
    exact symbol_visible v (sextets_lt bs v hv)
  · rw [List.eq_of_mem_replicate h]
    decide

theorem two_le_length_sextets : ∀ {bs : Bytes}, bs ≠ [] → 2 ≤ (sextets bs).length
  | [], h => absurd rfl h
  | [_], _ => Nat.le_refl 2
  | [_, _], _ => Nat.le_succ 2
  | _ :: _ :: _ :: _, _ => by simp [sextets]

/-! ## one quad -/

theorem triple_sextets (a b c : UInt8) :
    triple (a.toNat / 4) (a.toNat % 4 * 16 + b.toNat / 16) (b.toNat % 16 * 4 + c.toNat / 64)
      (c.toNat % 64) = [a, b, c] := by
  have ha := a.toNat_lt
  have hb := b.toNat_lt
  have hc := c.toNat_lt
  unfold triple
  rw [toUInt8_of_eq (b := a) (by omega), toUInt8_of_eq (b := b) (by omega),
    toUInt8_of_eq (b := c) (by omega)]

theorem tailOctets_sextets : ∀ {bs : Bytes}, bs ≠ [] → bs.length ≤ 3 →
    tailOctets (sextets bs) = (bs, 0)
  | [], h, _ => absurd rfl h
  | [a], _, _ => by
    have ha := a.toNat_lt
    have hspare : a.toNat % 4 * 16 % 16 = 0 := by omega
    show ([(a.toNat / 4 * 4 + a.toNat % 4 * 16 / 16).toUInt8], a.toNat % 4 * 16 % 16) = _
    rw [toUInt8_of_eq (b := a) (by omega), hspare]
  | [a, b], _, _ => by
    have ha := a.toNat_lt
    have hb := b.toNat_lt
    have hspare : b.toNat % 16 * 4 % 4 = 0 := by omega
    show ([(a.toNat / 4 * 4 + (a.toNat % 4 * 16 + b.toNat / 16) / 16).toUInt8,
      ((a.toNat % 4 * 16 + b.toNat / 16) % 16 * 16 + b.toNat % 16 * 4 / 4).toUInt8],
      b.toNat % 16 * 4 % 4) = _
    rw [toUInt8_of_eq (b := a) (by omega), toUInt8_of_eq (b := b) (by omega), hspare]
  | [a, b, c], _, _ => by
    show (triple _ _ _ _, 0) = _
    rw [triple_sextets]
  | _ :: _ :: _ :: _ :: _, _, h => by
    simp only [List.length_cons] at h
    omega

theorem toNat_toUInt8 {n : Nat} (h : n < 256) : n.toUInt8.toNat = n := by
  rw [Nat.toUInt8_eq, UInt8.toNat_ofNat']
  exact Nat.mod_eq_of_lt h

theorem sextets_triple {a b c d : Nat} (ha : a < 64) (hb : b < 64) (hc : c < 64) (hd : d < 64)
    (rest : Bytes) : sextets (triple a b c d ++ rest) = a :: b :: c :: d :: sextets rest := by
  have hx := toNat_toUInt8 (n := a * 4 + b / 16) (by omega)
  have hy := toNat_toUInt8 (n := b % 16 * 16 + c / 4) (by omega)
  have hz := toNat_toUInt8 (n := c % 4 * 64 + d) (by omega)
  show sextets (_ :: _ :: _ :: rest) = _
  rw [sextets, hx, hy, hz]
  congr 1
  · omega
  · congr 1
    · omega
    · congr 1
      · omega
      · congr 1
        omega

/-- values whose spare bits are zero are the sextets of their octets -/
theorem sextets_tailOctets : ∀ {vs : List Nat}, (∀ v ∈ vs, v < 64) → 2 ≤ vs.length →
    vs.length ≤ 4 → (tailOctets vs).2 = 0 → sextets (tailOctets vs).1 = vs
  | [a, b], hlt, _, _, hspare => by
    simp only [List.forall_mem_cons] at hlt
    obtain ⟨ha, hb, -⟩ := hlt
    replace hspare : b % 16 = 0 := hspare
    have hx := toNat_toUInt8 (n := a * 4 + b / 16) (by omega)
    show sextets [_] = _
    rw [sextets, hx]
    congr 1
    · omega
    · congr 1
      omega
  | [a, b, c], hlt, _, _, hspare => by
    simp only [List.forall_mem_cons] at hlt
    obtain ⟨ha, hb, hc, -⟩ := hlt
    replace hspare : c % 4 = 0 := hspare
    have hx := toNat_toUInt8 (n := a * 4 + b / 16) (by omega)
    have hy := toNat_toUInt8 (n := b % 16 * 16 + c / 4) (by omega)
    show sextets [_, _] = _
    rw [sextets, hx, hy]
    congr 1
    · omega
    · congr 1
      · omega
      · congr 1
        omega
  | [a, b, c, d], hlt, _, _, _ => by
    simp only [List.forall_mem_cons] at hlt
    obtain ⟨ha, hb, hc, hd, -⟩ := hlt
    exact sextets_triple ha hb hc hd []
  | [], _, h, _, _ => by simp at h
  | [_], _, h, _, _ => by simp at h
  | _ :: _ :: _ :: _ :: _ :: _, _, _, h, _ => by
    simp only [List.length_cons] at h
    omega

theorem length_tailOctets : ∀ {vs : List Nat}, 2 ≤ vs.length → vs.length ≤ 4 →
    (tailOctets vs).1.length + 1 = vs.length
  | [_, _], _, _ => rfl
  | [_, _, _], _, _ => rfl
  | [_, _, _, _], _, _ => rfl
  | [], h, _ => by simp at h
  | [_], h, _ => by simp at h
  | _ :: _ :: _ :: _ :: _ :: _, _, h => by
    simp only [List.length_cons] at h
    omega

/-! ## full quads -/

theorem joinQuads_sextets : ∀ {bs : Bytes}, bs.length % 3 = 0 → joinQuads (sextets bs) = bs
  | [], _ => rfl
  | [_], h => by cases h
  | [_, _], h => by cases h
  | a :: b :: c :: rest, h => by
    have hrest : rest.length % 3 = 0 := by
      rw [← h]
      exact (Nat.add_mod_right rest.length 3).symm
    rw [sextets, joinQuads, triple_sextets, joinQuads_sextets hrest]
    rfl

theorem sextets_joinQuads : ∀ {vs : List Nat}, (∀ v ∈ vs, v < 64) → vs.length % 4 = 0 →
    sextets (joinQuads vs) = vs ∧ (joinQuads vs).length % 3 = 0
  | [], _, _ => ⟨rfl, rfl⟩
  | [_], _, h => by cases h
  | [_, _], _, h => by cases h
  | [_, _, _], _, h => by cases h
  | a :: b :: c :: d :: rest, hlt, h => by
    simp only [List.forall_mem_cons] at hlt
    obtain ⟨ha, hb, hc, hd, hrest⟩ := hlt
    have hlength : rest.length % 4 = 0 := by
      rw [← h]
      exact (Nat.add_mod_right rest.length 4).symm
    obtain ⟨hvalues, hfull⟩ := sextets_joinQuads hrest hlength
    rw [joinQuads]
    constructor
    · rw [sextets_triple ha hb hc hd, hvalues]
    · rw [List.length_append]
      show (3 + _) % 3 = 0
      omega

/-- full quads are read as the octets that write them -/
theorem quads_eq_ok_iff {bs octets : Bytes} (h : bs.length % 4 = 0) :
    quads bs = .ok octets ↔ octets.length % 3 = 0 ∧ bs = encode octets := by
  have hquads : quads bs = .ok octets ↔ ∃ vs, values 0 bs = .ok vs ∧ joinQuads vs = octets := by
    unfold quads
    cases values 0 bs <;> simp [Except.map]
  rw [hquads]
  constructor
  · rintro ⟨vs, hvs, rfl⟩
    obtain ⟨hlt, rfl⟩ := values_eq_ok_iff.1 hvs
    rw [List.length_map] at h
    obtain ⟨hvalues, hfull⟩ := sextets_joinQuads hlt h
    refine ⟨hfull, ?_⟩
    rw [encode_eq, hvalues, padding_of_full hfull, List.append_nil]
  · rintro ⟨hfull, rfl⟩
    refine ⟨sextets octets, values_eq_ok_iff.2 ⟨sextets_lt octets, ?_⟩, joinQuads_sextets hfull⟩
    rw [encode_eq, padding_of_full hfull, List.append_nil]

/-! ## the last quad -/

/-- what the last quad is taken for: symbols, then padding only, and no spare bits -/
theorem lastQuad_eq_ok {offset : Nat} {bs octets : Bytes} :
    lastQuad offset bs = .ok octets ↔
      ∃ vs, values offset (bs.takeWhile (· ≠ Ascii.equals)) = .ok vs ∧
        (bs.dropWhile (· ≠ Ascii.equals)).all (· = Ascii.equals) = true ∧
        2 ≤ (bs.takeWhile (· ≠ Ascii.equals)).length ∧ bs.length % 4 = 0 ∧
        (tailOctets vs).2 = 0 ∧ (tailOctets vs).1 = octets := by
  unfold lastQuad
  generalize bs.takeWhile (· ≠ Ascii.equals) = symbols
  generalize bs.dropWhile (· ≠ Ascii.equals) = rest
  dsimp only
  rw [chain_eq_ok]
  refine exists_congr fun vs => and_congr_right fun _ => ?_
  rw [unless_eq_ok, unless_eq_ok, unless_eq_ok, unless_eq_ok, unless_eq_ok]
  constructor
  · rintro ⟨-, hrest, hsymbols, hlength, hspare, h⟩
    cases h
    exact ⟨by simpa using hrest, by omega, by omega, by omega, rfl⟩
  · rintro ⟨hrest, hsymbols, hlength, hspare, rfl⟩
    have hmany : ¬ symbols.length < 2 := by omega
    exact ⟨by simp [hmany], by simp [hrest], hmany, by omega, by omega, rfl⟩

theorem ne_equals_of_mem_map {vs : List Nat} (hlt : ∀ v ∈ vs, v < 64) {b : UInt8}
    (hb : b ∈ vs.map symbol) : decide (b ≠ Ascii.equals) = true := by
  obtain ⟨v, hv, rfl⟩ := List.mem_map.1 hb
  exact decide_eq_true (symbol_ne_equals v (hlt v hv))

theorem takeWhile_symbols {vs : List Nat} (hlt : ∀ v ∈ vs, v < 64) (n : Nat) :
    (vs.map symbol ++ List.replicate n Ascii.equals).takeWhile (· ≠ Ascii.equals) =
      vs.map symbol := by
  rw [List.takeWhile_append_of_pos fun b hb => ne_equals_of_mem_map hlt hb,
    List.takeWhile_replicate]
  exact List.append_nil _

theorem dropWhile_symbols {vs : List Nat} (hlt : ∀ v ∈ vs, v < 64) (n : Nat) :
    (vs.map symbol ++ List.replicate n Ascii.equals).dropWhile (· ≠ Ascii.equals) =
      List.replicate n Ascii.equals := by
  rw [List.dropWhile_append_of_pos fun b hb => ne_equals_of_mem_map hlt hb,
    List.dropWhile_replicate]
  rfl

/-- the last quad is read as the octets that write it -/
theorem lastQuad_eq_ok_iff {offset : Nat} {bs octets : Bytes} (hpos : bs ≠ [])
    (hle : bs.length ≤ 4) :
    lastQuad offset bs = .ok octets ↔ octets ≠ [] ∧ octets.length ≤ 3 ∧ bs = encode octets := by
  rw [lastQuad_eq_ok]
  constructor
  · rintro ⟨vs, hvs, hrest, hmany, hlength, hspare, rfl⟩
    obtain ⟨hlt, hsymbols⟩ := values_eq_ok_iff.1 hvs
    have hcut : vs.map symbol ++ bs.dropWhile (· ≠ Ascii.equals) = bs := by
      rw [← hsymbols]
      exact List.takeWhile_append_dropWhile
    have hfour : bs.length = 4 := by
      have := List.length_pos_iff.2 hpos
      omega
    have hlengths : vs.length + (bs.dropWhile (· ≠ Ascii.equals)).length = 4 := by
      rw [← hfour, ← congrArg List.length hcut, List.length_append, List.length_map]
    rw [hsymbols, List.length_map] at hmany
    have hoctets := length_tailOctets hmany (by omega)
    refine ⟨?_, by omega, ?_⟩
    · intro hnil
      rw [hnil, List.length_nil] at hoctets
      omega
    · have hpadding : bs.dropWhile (· ≠ Ascii.equals) = padding (tailOctets vs).1 := by
        refine List.eq_replicate_iff.2 ⟨by omega, fun b hb => ?_⟩
        exact of_decide_eq_true (List.all_eq_true.1 hrest b hb)
      rw [encode_eq, sextets_tailOctets hlt hmany (by omega) hspare, ← hpadding]
      exact hcut.symm
  · rintro ⟨hne, hle3, rfl⟩
    have hlt := sextets_lt octets
    have htail := tailOctets_sextets hne hle3
    have hlength := length_encode octets
    have hpos := List.length_pos_iff.2 hne
    rw [encode_eq, padding, takeWhile_symbols hlt, dropWhile_symbols hlt, ← padding, ← encode_eq]
    refine ⟨sextets octets, values_eq_ok_iff.2 ⟨hlt, rfl⟩, ?_, ?_, by omega, ?_, ?_⟩
    · exact List.all_eq_true.2 fun b hb => decide_eq_true (List.eq_of_mem_replicate hb)
    · rw [List.length_map]
      exact two_le_length_sextets hne
    · rw [htail]
    · rw [htail]

/-! ## whole texts -/

theorem length_encode_mod (bs : Bytes) : (encode bs).length % 4 = 0 := by
  rw [length_encode]
  exact Nat.mul_mod_left ..

theorem strayOctet?_of_full {bs : Bytes} (h : bs.length % 4 = 0) : strayOctet? bs = none := by
  unfold strayOctet?
  rw [if_neg (by omega)]

/-- the quads before the last one, then the last one -/
theorem decode_eq_ok {bs octets : Bytes} (hne : bs ≠ []) :
    decode bs = .ok octets ↔ strayOctet? bs = none ∧
      ∃ front, quads (bs.take ((bs.length - 1) / 4 * 4)) = .ok front ∧
        ∃ back, lastQuad ((bs.length - 1) / 4 * 4) (bs.drop ((bs.length - 1) / 4 * 4)) = .ok back ∧
          front ++ back = octets := by
  unfold decode
  cases strayOctet? bs with
  | some b =>
    constructor
    · intro h
      cases h
    · rintro ⟨h, -⟩
      cases h
  | none =>
    dsimp only
    rw [if_neg (by rw [List.isEmpty_iff]; exact hne), chain_eq_ok]
    simp only [chain_eq_ok, true_and, pure, Except.pure, Except.ok.injEq]

theorem encode_of_decode {bs octets : Bytes} (h : decode bs = .ok octets) : bs = encode octets := by
  by_cases hne : bs = []
  · subst hne
    cases h
    rfl
  · obtain ⟨-, front, hfront, back, hback, rfl⟩ := (decode_eq_ok hne).1 h
    have hpos := List.length_pos_iff.2 hne
    generalize hcut : (bs.length - 1) / 4 * 4 = cut at hfront hback
    have htake : (bs.take cut).length % 4 = 0 := by
      rw [List.length_take]
      omega
    have hdrop : (bs.drop cut).length ≤ 4 := by
      rw [List.length_drop]
      omega
    have hrest : bs.drop cut ≠ [] := by
      intro hnil
      rw [List.drop_eq_nil_iff] at hnil
      omega
    obtain ⟨hfull, hfirst⟩ := (quads_eq_ok_iff htake).1 hfront
    obtain ⟨-, -, hlast⟩ := (lastQuad_eq_ok_iff hrest hdrop).1 hback
    calc bs = bs.take cut ++ bs.drop cut := (List.take_append_drop cut bs).symm
      _ = encode front ++ encode back := by rw [hfirst, hlast]
      _ = encode (front ++ back) := (encode_append back hfull).symm

theorem decode_encode (octets : Bytes) : decode (encode octets) = .ok octets := by
  by_cases hne : octets = []
  · subst hne
    rfl
  · have hpos := List.length_pos_iff.2 hne
    have henc : encode octets ≠ [] := fun h => hne (encode_eq_nil_iff.1 h)
    generalize hcut : (octets.length - 1) / 3 * 3 = cut
    have hfull : (octets.take cut).length % 3 = 0 := by
      rw [List.length_take]
      omega
    have hfront : (encode (octets.take cut)).length = cut / 3 * 4 := by
      rw [length_encode, List.length_take]
      omega
    have hplace : ((encode octets).length - 1) / 4 * 4 = (encode (octets.take cut)).length := by
      rw [hfront, length_encode]
      omega
    have hsplit : encode octets = encode (octets.take cut) ++ encode (octets.drop cut) := by
      rw [← encode_append _ hfull, List.take_append_drop]
    have hrest : octets.drop cut ≠ [] := by
      intro hnil
      rw [List.drop_eq_nil_iff] at hnil
      omega
    have hfew : (octets.drop cut).length ≤ 3 := by
      rw [List.length_drop]
      omega
    rw [decode_eq_ok henc, hplace]
    refine ⟨strayOctet?_of_full (length_encode_mod octets), octets.take cut, ?_,
      octets.drop cut, ?_, List.take_append_drop cut octets⟩
    · rw [hsplit, List.take_left', quads_eq_ok_iff (length_encode_mod _)]
      · exact ⟨hfull, rfl⟩
      · rfl
    · rw [hsplit, List.drop_left, lastQuad_eq_ok_iff]
      · exact ⟨hrest, hfew, rfl⟩
      · exact fun h => hrest (encode_eq_nil_iff.1 h)
      · rw [length_encode]
        omega

/-- so padding that is missing, octets that are no symbols and spare bits that are not zero are all
refused -/
theorem decode_eq_ok_iff {bs octets : Bytes} : decode bs = .ok octets ↔ bs = encode octets := by
  constructor
  · exact encode_of_decode
  · rintro rfl
    exact decode_encode octets

/-! ## texts -/

/-- a text is the base64 of some octets -/
def Writes (text : String) (octets : Bytes) : Prop := Utf8.encode text = encode octets

instance (text : String) (octets : Bytes) : Decidable (Writes text octets) :=
  inferInstanceAs (Decidable (_ = _))

theorem decode_text_eq_ok_iff {text : String} {octets : Bytes} :
    decode (Utf8.encode text) = .ok octets ↔ Writes text octets := decode_eq_ok_iff

/-- octets have one writing only -/
theorem Writes.text_eq {a b : String} {octets : Bytes} (ha : Writes a octets)
    (hb : Writes b octets) : a = b := by
  have hread := Utf8.decode?_encode a
  rw [ha, ← hb, Utf8.decode?_encode] at hread
  cases hread
  rfl

/-- the base64 of octets, as a text -/
def text (octets : Bytes) : String :=
  String.ofList ((encode octets).map fun b => Char.ofNat b.toNat)

theorem writes_text (octets : Bytes) : Writes (text octets) octets :=
  Utf8.encode_ofList_charOf fun _ hb => UInt8.lt_trans (visible_of_mem_encode hb).2 (by decide)

end ForgeRelay.Base64
