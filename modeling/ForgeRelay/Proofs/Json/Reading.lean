import ForgeRelay.Proofs.Json.Drafts
import ForgeRelay.Proofs.Json.Numerals
import ForgeRelay.Proofs.Json.Strings

/-!
# One step of the reader

What `Draft.value?`, `commaList?` and `field?` do with octets that start as written ones do: without
a blank in front, and with the octet that tells which value comes.

* `commaList?_last`, `commaList?_comma`   an item with the end of the list or a comma after it;
* `field?_writeString`                    a written name, a colon and a value;
* `Draft.value?_quote`, `value?_numeral`, `value?_openBracket`, `value?_openBrace`
-/

namespace ForgeRelay.Json

theorem skipSpace_cons {b : UInt8} (h : isSpace b = false) (bs : Bytes) :
    skipSpace (b :: bs) = b :: bs :=
  List.dropWhile_cons_of_neg (by rw [h]; decide)

/-! ## lists -/

section
variable {α : Type} {close : UInt8} {item : Reader α} {front rest : Bytes} {a : α}

/-- after an item comes the end of the list or a comma -/
theorem commaList?_item {b : UInt8} (hb : isSpace b = false)
    (h : item front = some (a, b :: rest)) (fuel : Nat) :
    commaList? close item (fuel + 1) front
      = if b = close then some ([a], rest)
        else if b = Ascii.comma then
          (commaList? close item fuel rest).bind fun p => some (a :: p.1, p.2)
        else none := by
  rw [commaList?, h]
  simp only [Option.bind_eq_bind, Option.bind_some, skipSpace_cons hb]
  rfl

theorem commaList?_last (hs : isSpace close = false)
    (h : item front = some (a, close :: rest)) (fuel : Nat) :
    commaList? close item (fuel + 1) front = some ([a], rest) := by
  rw [commaList?_item hs h, if_pos rfl]

theorem commaList?_comma (hc : Ascii.comma ≠ close) {next : Bytes}
    (h : item front = some (a, Ascii.comma :: next)) {fuel : Nat} {as : List α}
    (ht : commaList? close item fuel next = some (as, rest)) :
    commaList? close item (fuel + 1) front = some (a :: as, rest) := by
  rw [commaList?_item (by decide) h, if_neg hc, if_pos rfl, ht]
  rfl

end

/-! ## fields -/

theorem writeString_append (s : String) (rest : Bytes) :
    writeString s ++ rest
      = Ascii.quote :: ((Utf8.encode s).flatMap escapeOctet ++ Ascii.quote :: rest) := by
  unfold writeString
  rw [List.append_assoc]
  rfl

theorem field?_writeString {α : Type} {value : Reader α} {k : String} {bs rest : Bytes} {v : α}
    (h : value bs = some (v, rest)) :
    field? value (writeString k ++ Ascii.colon :: bs) = some ((some k, v), rest) := by
  rw [writeString_append]
  unfold field?
  rw [skipSpace_cons (by decide)]
  show (stringBody? ((Utf8.encode k).flatMap escapeOctet
    ++ Ascii.quote :: Ascii.colon :: bs)).bind _ = _
  rw [stringBody?_escaped]
  show (value bs).bind _ = _
  rw [h]
  rfl

/-! ## values -/

/-- what a numeral starts with is told apart from what anything else starts with -/
theorem ne_of_numeral_head {b : UInt8} (h : Ascii.isDigit b ∨ b = Ascii.minus) {c : UInt8}
    (hd : Ascii.isDigit c = false) (hm : c ≠ Ascii.minus) : b ≠ c := by
  rintro rfl
  rcases h with h | h
  · rw [h] at hd
    cases hd
  · exact hm h

theorem isSpace_numeral_head {b : UInt8} (h : Ascii.isDigit b ∨ b = Ascii.minus) :
    isSpace b = false := by
  unfold isSpace
  rw [decide_eq_false (ne_of_numeral_head h (by decide) (by decide)),
    decide_eq_false (ne_of_numeral_head h (by decide) (by decide)),
    decide_eq_false (ne_of_numeral_head h (by decide) (by decide)),
    decide_eq_false (ne_of_numeral_head h (by decide) (by decide))]
  rfl

namespace Draft

theorem value?_quote (fuel : Nat) (bs : Bytes) :
    value? (fuel + 1) (Ascii.quote :: bs) = (stringBody? bs).map fun p => (.str p.1, p.2) := by
  show (stringBody? bs).bind _ = _
  cases stringBody? bs <;> rfl

theorem value?_numeral (fuel : Nat) {b : UInt8} (h : Ascii.isDigit b ∨ b = Ascii.minus)
    (bs : Bytes) :
    value? (fuel + 1) (b :: bs) = (numeral? (b :: bs)).map fun p => (.num p.1.number?, p.2) := by
  unfold value?
  rw [skipSpace_cons (isSpace_numeral_head h)]
  split
  case h_7 => cases numeral? (b :: bs) <;> rfl
  -- the other branches start with an octet that no numeral starts with
  all_goals
    rename_i hb
    exact absurd (List.cons.inj hb).1 (ne_of_numeral_head h (by decide) (by decide))

theorem value?_openBracket (fuel : Nat) {b : UInt8} (hs : isSpace b = false)
    (hb : b ≠ Ascii.closeBracket) (bs : Bytes) :
    value? (fuel + 1) (Ascii.openBracket :: b :: bs)
      = (commaList? Ascii.closeBracket (value? fuel) (bs.length + 1) (b :: bs)).map
          fun p => (.arr p.1, p.2) := by
  rw [value?, skipSpace_cons (by decide)]
  split
  case h_2 =>
    rename_i hc
    cases hc
    rw [skipSpace_cons hs]
    split
    · rename_i hc
      exact absurd (List.cons.inj hc).1 hb
    · cases commaList? Ascii.closeBracket (value? fuel) (bs.length + 1) (b :: bs) <;> rfl
  case h_7 =>
    rename_i hc _ _ _ _
    exact absurd rfl (hc (b :: bs))
  all_goals
    rename_i hc
    exact absurd (List.cons.inj hc).1 (by decide)

theorem value?_openBrace (fuel : Nat) (bs : Bytes) :
    value? (fuel + 1) (Ascii.openBrace :: Ascii.quote :: bs)
      = (commaList? Ascii.closeBrace (field? (value? fuel)) (bs.length + 1)
          (Ascii.quote :: bs)).map fun p => (.obj p.1, p.2) := by
  show (commaList? Ascii.closeBrace (field? (value? fuel)) (bs.length + 1)
    (Ascii.quote :: bs)).bind _ = _
  cases commaList? Ascii.closeBrace (field? (value? fuel)) (bs.length + 1) (Ascii.quote :: bs)
    <;> rfl

end Draft

end ForgeRelay.Json
