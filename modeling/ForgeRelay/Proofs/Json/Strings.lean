import ForgeRelay.Json.Draft
import ForgeRelay.Json.Writer

/-!
# Written strings are read back

A string is written octet by octet (`escapeOctet`) and read piece by piece (`pieces?`), and the
pieces are then joined to octets (`joinPieces?`).  An octet is written as itself, with a letter, or
with four digits; `pieceOf` is the piece in which it comes back.

* `escapeOctet_cases`         how an octet can be written;
* `pieces?_escapeOctet`       reading over one written octet;
* `joinPieces?_map_pieceOf`   the pieces of octets are joined to these octets;
* `stringBody?_escaped`       a written string is read as that string.
-/

namespace ForgeRelay.Json

/-! ## one octet -/

theorem unit?_hexDigit : ∀ n < 0x20,
    unit? Ascii.zero Ascii.zero (hexDigit (n / 16)) (hexDigit (n % 16)) = some n := by
  decide

theorem scalarOctets_of_lt : ∀ n < 0x20, scalarOctets n = [n.toUInt8] := by
  decide

theorem pieces?_plain {b : UInt8} (hq : b ≠ Ascii.quote) (hs : b ≠ Ascii.backslash)
    (hc : ¬ b < 0x20) (bs : Bytes) :
    pieces? (b :: bs) = (pieces? bs).map fun p => (.octet b :: p.1, p.2) := by
  rw [pieces?]
  · rw [if_neg hc]
    cases pieces? bs <;> rfl
  · exact hq
  · rintro _ _ _ _ _ rfl
    exact absurd rfl hs
  · rintro _ _ rfl
    exact absurd rfl hs

theorem pieces?_letter {e b : UInt8} (hu : e ≠ Ascii.u) (he : escaped? e = some b) (bs : Bytes) :
    pieces? (Ascii.backslash :: e :: bs) = (pieces? bs).map fun p => (.octet b :: p.1, p.2) := by
  refine (pieces?.eq_4 e bs ?_).trans ?_
  · intro _ _ _ _ _ h
    exact absurd h hu
  · rw [he]
    cases pieces? bs <;> rfl

theorem pieces?_unit {a b c d : UInt8} {u : Nat} (h : unit? a b c d = some u) (bs : Bytes) :
    pieces? (Ascii.backslash :: Ascii.u :: a :: b :: c :: d :: bs)
      = (pieces? bs).map fun p => (.unit u :: p.1, p.2) := by
  refine (pieces?.eq_3 a b c d bs).trans ?_
  rw [h]
  cases pieces? bs <;> rfl

/-- an octet is written with a letter, with four digits, or as it is -/
theorem escapeOctet_cases (b : UInt8) :
    (∃ e, escapeOctet b = [Ascii.backslash, e] ∧ e ≠ Ascii.u ∧ escaped? e = some b)
    ∨ (escapeOctet b = [Ascii.backslash, Ascii.u, Ascii.zero, Ascii.zero,
        hexDigit (b.toNat / 16), hexDigit (b.toNat % 16)] ∧ b.toNat < 0x20)
    ∨ (escapeOctet b = [b] ∧ b ≠ Ascii.quote ∧ b ≠ Ascii.backslash ∧ ¬ b < 0x20) := by
  by_cases hl : b ∈ [Ascii.quote, Ascii.backslash, Ascii.backspace, Ascii.formFeed,
      Ascii.lineFeed, Ascii.carriageReturn, Ascii.tab]
  · refine .inl ?_
    simp only [List.mem_cons, List.not_mem_nil, or_false] at hl
    rcases hl with rfl | rfl | rfl | rfl | rfl | rfl | rfl
    all_goals exact ⟨_, rfl, by decide, by decide⟩
  · refine .inr ?_
    simp only [List.mem_cons, List.not_mem_nil, or_false, not_or] at hl
    obtain ⟨hq, hs, hb, hf, hn, hr, ht⟩ := hl
    unfold escapeOctet
    rw [if_neg hq, if_neg hs, if_neg hb, if_neg hf, if_neg hn, if_neg hr, if_neg ht]
    by_cases hc : b < 0x20
    · rw [if_pos hc]
      exact .inl ⟨rfl, hc⟩
    · rw [if_neg hc]
      exact .inr ⟨rfl, hq, hs, hc⟩

/-- the piece in which a written octet is read; only four digits come as a unit -/
def pieceOf (b : UInt8) : Piece :=
  if (escapeOctet b).length = 6 then .unit b.toNat else .octet b

theorem pieces?_escapeOctet (b : UInt8) (bs : Bytes) :
    pieces? (escapeOctet b ++ bs) = (pieces? bs).map fun p => (pieceOf b :: p.1, p.2) := by
  unfold pieceOf
  rcases escapeOctet_cases b with ⟨e, he, hu, hb⟩ | ⟨he, hc⟩ | ⟨he, hq, hs, hc⟩
  · rw [he]
    exact pieces?_letter hu hb bs
  · rw [he]
    exact pieces?_unit (unit?_hexDigit b.toNat hc) bs
  · rw [he]
    exact pieces?_plain hq hs hc bs

/-! ## joining pieces -/

theorem joinPieces?_unit {u : Nat} (h : u < 0xd800) (ps : List Piece) :
    joinPieces? (.unit u :: ps) = (joinPieces? ps).map (scalarOctets u ++ ·) := by
  have hh : isHigh u = false := by
    rw [isHigh, decide_eq_false (by omega), Bool.false_and]
  have hl : isLow u = false := by
    rw [isLow, decide_eq_false (by omega), Bool.false_and]
  rw [joinPieces?.eq_def]
  show (if isHigh u then _ else if isLow u then none else _) = _
  rw [hh, hl]
  rfl

theorem joinPieces?_pieceOf (b : UInt8) (ps : List Piece) :
    joinPieces? (pieceOf b :: ps) = (joinPieces? ps).map (b :: ·) := by
  unfold pieceOf
  rcases escapeOctet_cases b with ⟨e, he, -⟩ | ⟨he, hc⟩ | ⟨he, -⟩
  · rw [he]
    rfl
  · rw [he]
    show joinPieces? (.unit b.toNat :: ps) = _
    rw [joinPieces?_unit (by omega), scalarOctets_of_lt _ hc, Nat.toUInt8_eq, UInt8.ofNat_toNat]
    rfl
  · rw [he]
    rfl

theorem joinPieces?_map_pieceOf (bs : Bytes) : joinPieces? (bs.map pieceOf) = some bs := by
  induction bs with
  | nil => rfl
  | cons b bs ih =>
    rw [List.map_cons, joinPieces?_pieceOf, ih]
    rfl

/-! ## whole strings -/

theorem pieces?_flatMap_escapeOctet (bs rest : Bytes) :
    pieces? (bs.flatMap escapeOctet ++ Ascii.quote :: rest) = some (bs.map pieceOf, rest) := by
  induction bs with
  | nil => rfl
  | cons b bs ih =>
    rw [List.flatMap_cons, List.append_assoc, pieces?_escapeOctet, ih]
    rfl

/-- a written string is read back, whatever follows its closing quote -/
theorem stringBody?_escaped (s : String) (rest : Bytes) :
    stringBody? ((Utf8.encode s).flatMap escapeOctet ++ Ascii.quote :: rest)
      = some (some s, rest) := by
  unfold stringBody?
  rw [pieces?_flatMap_escapeOctet]
  show some ((joinPieces? ((Utf8.encode s).map pieceOf)).bind Utf8.decode?, rest) = _
  rw [joinPieces?_map_pieceOf, Option.bind_some, Utf8.decode?_encode]

end ForgeRelay.Json
