import ForgeRelay.Duration

/-!
# The grammar of durations

The text of a duration is a numeral of seconds, or a row of tokens: each a numeral with a unit.
`Token.Fits` holds the bounds that one token is checked against, `total` is the sum of a row.

`Duration.sum?` takes the longest numeral and then all up to the next digit, so a row of tokens can
be told apart in one way only.  One round of it takes one token off the front
(`sum?_eq_some_token`), and a run of rounds takes a row (`sum?_eq_some_iff`).  The sum is bounded
after every token; it only grows, so this is no more than a bound on the total.

* `parse?_eq_some_iff`     what is read, and as what;
* `parse?_millisText`      a duration that is written in milliseconds is read back below the limit.
-/

namespace ForgeRelay.Duration

/-! ## the grammar -/

/-- one or more digits -/
def IsNumeral (ds : List Char) : Prop := ds ≠ [] ∧ ∀ c ∈ ds, c.isDigit = true

/-- the number that digits write -/
def value (ds : List Char) : Nat := Nat.ofDigitChars 10 ds 0

inductive Scale where
  | milli
  | second
  | minute
  | hour
  deriving DecidableEq, Repr

namespace Scale

def letters : Scale → List Char
  | .milli => ['m', 's']
  | .second => ['s']
  | .minute => ['m']
  | .hour => ['h']

/-- what a number is multiplied by before it is bounded -/
def factor : Scale → Nat
  | .milli => 1
  | .second => 1
  | .minute => 60
  | .hour => 3600

/-- the nanoseconds of one -/
def nanos : Scale → Nat
  | .milli => 1000000
  | .second => 1000000000
  | .minute => 60 * 1000000000
  | .hour => 3600 * 1000000000

end Scale

structure Token where
  digits : List Char
  scale : Scale
  deriving DecidableEq, Repr

def Token.text (t : Token) : List Char := t.digits ++ t.scale.letters
def Token.nanos (t : Token) : Nat := value t.digits * t.scale.nanos

structure Token.Fits (t : Token) : Prop where
  numeral : IsNumeral t.digits
  small : value t.digits < limit
  scaled : value t.digits * t.scale.factor < limit

/-- the text of tokens one after the other -/
def spelling (ts : List Token) : List Char := ts.flatMap Token.text

/-- the nanoseconds of tokens together -/
def total : List Token → Nat
  | [] => 0
  | t :: ts => t.nanos + total ts

theorem spelling_nil : spelling [] = [] := rfl
theorem spelling_cons (t : Token) (ts : List Token) : spelling (t :: ts) = t.text ++ spelling ts :=
  rfl
theorem total_cons (t : Token) (ts : List Token) : total (t :: ts) = t.nanos + total ts := rfl

/-- a number of seconds below the limit, with or without a plus sign -/
def IsBare (cs : List Char) (d : Duration) : Prop :=
  ∃ sign ds, (sign = [] ∨ sign = ['+']) ∧ IsNumeral ds ∧ cs = sign ++ ds ∧ value ds < limit ∧
    d = ofSecs (value ds)

/-- a row of one or more tokens, together below the limit of seconds -/
def IsRow (cs : List Char) (d : Duration) : Prop :=
  ∃ ts : List Token, ts ≠ [] ∧ cs = spelling ts ∧ (∀ t ∈ ts, t.Fits) ∧
    total ts < limit * 1000000000 ∧ d = ⟨total ts⟩

/-! ## numerals and units -/

theorem isDigit_eq (c : Char) : isDigit c = c.isDigit := rfl

theorem digitsValue_eq (ds : List Char) : digitsValue ds = value ds := rfl

theorem number?_eq_some {ds : List Char} {n : Nat} :
    number? ds = some n ↔ IsNumeral ds ∧ value ds < limit ∧ n = value ds := by
  have hguard : (ds.isEmpty || !ds.all isDigit) = false ↔ IsNumeral ds := by
    rw [Bool.or_eq_false_iff, Bool.not_eq_false', List.isEmpty_eq_false_iff, List.all_eq_true]
    rfl
  unfold number?
  rw [digitsValue_eq]
  by_cases hnumeral : IsNumeral ds
  · rw [hguard.2 hnumeral, if_neg Bool.false_ne_true]
    by_cases hsmall : value ds < limit
    · simp [hnumeral, hsmall, eq_comm]
    · simp [hsmall]
  · have hbad : (ds.isEmpty || !ds.all isDigit) = true := by
      rw [← Bool.not_eq_false, hguard]
      exact hnumeral
    simp [hbad, hnumeral]

theorem scaled?_eq_some {n : Nat} (hn : n < limit) {us : List Char} {part : Duration} :
    scaled? n us = some part ↔
      ∃ u : Scale, us = u.letters ∧ n * u.factor < limit ∧ part = ⟨n * u.nanos⟩ := by
  constructor
  · intro h
    unfold scaled? at h
    split at h
    · cases h
      exact ⟨.milli, rfl, by rw [Scale.factor]; omega, rfl⟩
    · cases h
      exact ⟨.second, rfl, by rw [Scale.factor]; omega, rfl⟩
    · split at h
      · rename_i hs
        cases h
        exact ⟨.minute, rfl, hs, by rw [Scale.nanos, ← Nat.mul_assoc]; rfl⟩
      · cases h
    · split at h
      · rename_i hs
        cases h
        exact ⟨.hour, rfl, hs, by rw [Scale.nanos, ← Nat.mul_assoc]; rfl⟩
      · cases h
    · cases h
  · rintro ⟨u, rfl, hs, rfl⟩
    cases u with
    | milli => rfl
    | second => rfl
    | minute =>
      refine (if_pos hs).trans ?_
      rw [Scale.nanos, ← Nat.mul_assoc]
      rfl
    | hour =>
      refine (if_pos hs).trans ?_
      rw [Scale.nanos, ← Nat.mul_assoc]
      rfl

theorem add?_eq_some {a b c : Duration} :
    a.add? b = some c ↔
      a.nanos + b.nanos < limit * 1000000000 ∧ c = ⟨a.nanos + b.nanos⟩ := by
  have hsecs : (a.nanos + b.nanos) / 1000000000 < limit ↔
      a.nanos + b.nanos < limit * 1000000000 := Nat.div_lt_iff_lt_mul (by decide)
  rw [← hsecs]
  show (if (a.nanos + b.nanos) / 1000000000 < limit then some _ else none) = some c ↔ _
  by_cases h : (a.nanos + b.nanos) / 1000000000 < limit
  · simp [h, eq_comm]
  · simp [h]

theorem letters_ne_nil (u : Scale) : u.letters ≠ [] := by
  cases u <;> decide

/-- a unit has no digit in it -/
theorem isDigit_of_mem_letters {u : Scale} : ∀ c ∈ u.letters, c.isDigit = false := by
  intro c hc
  have hall : u.letters.all (fun c => !c.isDigit) = true := by
    cases u <;> decide
  have hletter := List.all_eq_true.1 hall c hc
  rwa [Bool.not_eq_true'] at hletter

/-! ## one token -/

/-- what is left after a token: nothing, or a text that a digit is in front of -/
def Resumes (cs : List Char) : Prop := ∀ c ∈ cs.head?, c.isDigit = true

theorem Token.resumes {t : Token} (h : IsNumeral t.digits) (rest : List Char) :
    Resumes (t.text ++ rest) := by
  obtain ⟨c, cs, hcs⟩ := List.exists_cons_of_ne_nil h.1
  intro b hb
  rw [Token.text, hcs] at hb
  have hbc : c = b := Option.some.inj hb
  rw [← hbc]
  exact h.2 c (by rw [hcs]; exact List.mem_cons_self ..)

theorem Token.text_ne_nil {t : Token} (h : IsNumeral t.digits) : t.text ≠ [] := by
  intro hnil
  exact h.1 (List.append_eq_nil_iff.1 hnil).1

/-- the longest run in front that `p` holds of, where it is cut short -/
theorem span_append {p : Char → Bool} {as rest : List Char} (h : ∀ c ∈ as, p c = true)
    (hr : ∀ c ∈ rest.head?, p c = false) :
    (as ++ rest).takeWhile p = as ∧ (as ++ rest).dropWhile p = rest := by
  rw [List.takeWhile_append_of_pos h, List.dropWhile_append_of_pos h]
  cases rest with
  | nil => exact ⟨List.append_nil as, rfl⟩
  | cons c rest =>
    have hc : p c = false := hr c rfl
    rw [List.takeWhile_cons_of_neg (by rw [hc]; decide),
      List.dropWhile_cons_of_neg (by rw [hc]; decide)]
    exact ⟨List.append_nil as, rfl⟩

/-- all up to the next digit after the digits in front -/
def unitOf (cs : List Char) : List Char := (cs.dropWhile isDigit).takeWhile (!isDigit ·)

/-- what is left after it -/
def restOf (cs : List Char) : List Char := (cs.dropWhile isDigit).dropWhile (!isDigit ·)

theorem append_unitOf_restOf (cs : List Char) :
    cs.takeWhile isDigit ++ (unitOf cs ++ restOf cs) = cs := by
  unfold unitOf restOf
  rw [List.takeWhile_append_dropWhile, List.takeWhile_append_dropWhile]

theorem resumes_restOf (cs : List Char) : Resumes (restOf cs) := by
  intro c hc
  have hstop := List.head?_dropWhile_not (!isDigit ·) (cs.dropWhile isDigit)
  unfold restOf at hc
  rw [Option.mem_def] at hc
  rw [hc] at hstop
  exact Bool.not_eq_eq_eq_not.1 hstop

/-- a token is cut off where it was put on -/
theorem Token.cut {t : Token} (h : IsNumeral t.digits) {rest : List Char} (hr : Resumes rest) :
    (t.text ++ rest).takeWhile isDigit = t.digits ∧ unitOf (t.text ++ rest) = t.scale.letters ∧
      restOf (t.text ++ rest) = rest := by
  have hstop : ∀ c ∈ (t.scale.letters ++ rest).head?, isDigit c = false := by
    intro c hc
    obtain ⟨b, bs, hbs⟩ := List.exists_cons_of_ne_nil (letters_ne_nil t.scale)
    rw [hbs] at hc
    have hbc : b = c := Option.some.inj hc
    rw [← hbc]
    exact isDigit_of_mem_letters b (by rw [hbs]; exact List.mem_cons_self ..)
  have hletters : ∀ c ∈ t.scale.letters, (!isDigit c) = true := by
    intro c hc
    rw [isDigit_eq, isDigit_of_mem_letters c hc]
    rfl
  have hrest : ∀ c ∈ rest.head?, (!isDigit c) = false := by
    intro c hc
    rw [isDigit_eq, hr c hc]
    rfl
  have hdigits := span_append (p := isDigit) h.2 hstop
  have hunit := span_append (p := (!isDigit ·)) hletters hrest
  unfold unitOf restOf
  rw [Token.text, List.append_assoc, hdigits.1, hdigits.2, hunit.1, hunit.2]
  exact ⟨rfl, rfl, rfl⟩

/-! ## one round -/

theorem sum?_succ (fuel : Nat) (sum : Duration) {cs : List Char} (h : cs ≠ []) :
    sum? (fuel + 1) sum cs
      = (number? (cs.takeWhile isDigit)).bind fun n => (scaled? n (unitOf cs)).bind fun part =>
          (sum.add? part).bind fun sum => sum? fuel sum (restOf cs) := by
  cases cs with
  | nil => exact absurd rfl h
  | cons c cs => rfl

/-- a round takes one token off the front and adds it -/
theorem sum?_eq_some_token {fuel : Nat} {sum d : Duration} {cs : List Char} (h : cs ≠ []) :
    sum? (fuel + 1) sum cs = some d ↔
      ∃ t : Token, ∃ rest, t.Fits ∧ Resumes rest ∧ cs = t.text ++ rest ∧
        sum.nanos + t.nanos < limit * 1000000000 ∧
        sum? fuel ⟨sum.nanos + t.nanos⟩ rest = some d := by
  rw [sum?_succ fuel sum h]
  constructor
  · intro hd
    obtain ⟨n, hn, hd⟩ := Option.bind_eq_some_iff.1 hd
    obtain ⟨part, hpart, hd⟩ := Option.bind_eq_some_iff.1 hd
    obtain ⟨next, hnext, hd⟩ := Option.bind_eq_some_iff.1 hd
    obtain ⟨hnumeral, hsmall, rfl⟩ := number?_eq_some.1 hn
    obtain ⟨u, hu, hscaled, rfl⟩ := (scaled?_eq_some hsmall).1 hpart
    obtain ⟨hbound, rfl⟩ := add?_eq_some.1 hnext
    refine ⟨⟨cs.takeWhile isDigit, u⟩, restOf cs, ⟨hnumeral, hsmall, hscaled⟩,
      resumes_restOf cs, ?_, hbound, hd⟩
    rw [Token.text, ← hu, List.append_assoc, append_unitOf_restOf]
  · rintro ⟨t, rest, hfits, hrest, rfl, hbound, hd⟩
    obtain ⟨hdigits, hunit, hleft⟩ := Token.cut hfits.numeral hrest
    have hn : number? t.digits = some (value t.digits) :=
      number?_eq_some.2 ⟨hfits.numeral, hfits.small, rfl⟩
    have hpart : scaled? (value t.digits) t.scale.letters = some ⟨t.nanos⟩ :=
      (scaled?_eq_some hfits.small).2 ⟨t.scale, rfl, hfits.scaled, rfl⟩
    have hnext : sum.add? ⟨t.nanos⟩ = some ⟨sum.nanos + t.nanos⟩ :=
      add?_eq_some.2 ⟨hbound, rfl⟩
    rw [hdigits, hunit, hleft, hn, Option.bind_some, hpart, Option.bind_some, hnext,
      Option.bind_some, hd]

/-! ## all rounds -/

theorem resumes_spelling {ts : List Token} (h : ∀ t ∈ ts, t.Fits) : Resumes (spelling ts) := by
  cases ts with
  | nil =>
    intro c hc
    cases hc
  | cons t ts => exact Token.resumes (h t (List.mem_cons_self ..)).numeral (spelling ts)

theorem spelling_eq_nil {ts : List Token} (h : ∀ t ∈ ts, t.Fits) : spelling ts = [] ↔ ts = [] := by
  constructor
  · intro hnil
    cases ts with
    | nil => rfl
    | cons t ts =>
      have hnumeral := (h t (List.mem_cons_self ..)).numeral
      exact absurd (List.append_eq_nil_iff.1 hnil).1 (Token.text_ne_nil hnumeral)
  · rintro rfl
    rfl

theorem sum?_nil (fuel : Nat) (sum : Duration) : sum? fuel sum [] = some sum := by
  cases fuel <;> rfl

/-- what is left to read, and to add up, after some rounds -/
def IsRest (sum : Duration) (cs : List Char) (d : Duration) : Prop :=
  ∃ ts : List Token, cs = spelling ts ∧ (∀ t ∈ ts, t.Fits) ∧
    sum.nanos + total ts < limit * 1000000000 ∧ d = ⟨sum.nanos + total ts⟩

theorem isRest_nil {sum d : Duration} (h : sum.nanos < limit * 1000000000) :
    IsRest sum [] d ↔ d = sum := by
  constructor
  · rintro ⟨ts, hts, hfits, -, rfl⟩
    rw [(spelling_eq_nil hfits).1 hts.symm]
    rfl
  · rintro rfl
    exact ⟨[], rfl, fun t ht => (nomatch ht), h, rfl⟩

/-- a token in front is added to the sum, which stays below the bound as the total does -/
theorem isRest_of_ne_nil {sum d : Duration} {cs : List Char} (h : cs ≠ []) :
    IsRest sum cs d ↔
      ∃ t : Token, ∃ rest, t.Fits ∧ Resumes rest ∧ cs = t.text ++ rest ∧
        sum.nanos + t.nanos < limit * 1000000000 ∧ IsRest ⟨sum.nanos + t.nanos⟩ rest d := by
  constructor
  · rintro ⟨ts, hts, hall, htotal, rfl⟩
    cases ts with
    | nil => exact absurd hts h
    | cons t ts =>
      obtain ⟨hfits, hrest⟩ := List.forall_mem_cons.1 hall
      rw [total_cons, ← Nat.add_assoc] at htotal ⊢
      exact ⟨t, spelling ts, hfits, resumes_spelling hrest, hts, by omega,
        ts, rfl, hrest, htotal, rfl⟩
  · rintro ⟨t, rest, hfits, -, rfl, hbound, ts, rfl, hall, htotal, rfl⟩
    refine ⟨t :: ts, rfl, List.forall_mem_cons.2 ⟨hfits, hall⟩, ?_, ?_⟩
    · rwa [total_cons, ← Nat.add_assoc]
    · rw [total_cons, ← Nat.add_assoc]

theorem sum?_nil_eq_some_iff {fuel : Nat} {sum d : Duration}
    (h : sum.nanos < limit * 1000000000) : sum? fuel sum [] = some d ↔ IsRest sum [] d := by
  rw [sum?_nil, isRest_nil h, Option.some_inj, eq_comm]

/-- every round takes a character at least, so a round for each of them is enough -/
theorem sum?_eq_some_iff {fuel : Nat} {sum d : Duration} {cs : List Char}
    (hfuel : cs.length ≤ fuel) (hsum : sum.nanos < limit * 1000000000) :
    sum? fuel sum cs = some d ↔ IsRest sum cs d := by
  induction fuel generalizing sum cs with
  | zero =>
    obtain rfl : cs = [] := List.eq_nil_of_length_eq_zero (Nat.le_zero.1 hfuel)
    exact sum?_nil_eq_some_iff hsum
  | succ fuel ih =>
    by_cases hcs : cs = []
    · rw [hcs]
      exact sum?_nil_eq_some_iff hsum
    · rw [sum?_eq_some_token hcs, isRest_of_ne_nil hcs]
      refine exists_congr fun t => exists_congr fun rest => ?_
      refine and_congr_right fun hfits => and_congr_right fun _ => and_congr_right fun hcut =>
        and_congr_right fun hbound => ih ?_ hbound
      have hpos : 0 < t.text.length := List.length_pos_iff.2 (Token.text_ne_nil hfits.numeral)
      rw [hcut, List.length_append] at hfuel
      omega

theorem isRest_zero {cs : List Char} (h : cs ≠ []) {d : Duration} :
    IsRest zero cs d ↔ IsRow cs d := by
  have hzero : ∀ n, zero.nanos + n = n := Nat.zero_add
  unfold IsRest IsRow
  simp only [hzero]
  refine exists_congr fun ts => ⟨?_, fun hrow => hrow.2⟩
  rintro ⟨hts, hrest⟩
  refine ⟨?_, hts, hrest⟩
  rintro rfl
  exact h hts

/-! ## whole texts -/

theorem not_isNumeral_plus (ds : List Char) : ¬ IsNumeral ('+' :: ds) := fun h =>
  absurd (h.2 '+' (List.mem_cons_self ..)) (by decide)

theorem map_ofSecs_number? {ds : List Char} {d : Duration} :
    (number? ds).map ofSecs = some d ↔
      IsNumeral ds ∧ value ds < limit ∧ d = ofSecs (value ds) := by
  rw [Option.map_eq_some_iff]
  constructor
  · rintro ⟨n, hn, rfl⟩
    obtain ⟨hnumeral, hsmall, rfl⟩ := number?_eq_some.1 hn
    exact ⟨hnumeral, hsmall, rfl⟩
  · rintro ⟨hnumeral, hsmall, rfl⟩
    exact ⟨value ds, number?_eq_some.2 ⟨hnumeral, hsmall, rfl⟩, rfl⟩

theorem bareSecs?_eq_some {cs : List Char} {d : Duration} :
    bareSecs? cs = some d ↔ IsBare cs d := by
  unfold bareSecs?
  split
  · rename_i ds
    rw [map_ofSecs_number?]
    constructor
    · rintro ⟨hnumeral, hsmall, rfl⟩
      exact ⟨['+'], ds, .inr rfl, hnumeral, rfl, hsmall, rfl⟩
    · rintro ⟨sign, es, rfl | rfl, hnumeral, hcs, hsmall, rfl⟩
      · rw [List.nil_append] at hcs
        rw [← hcs] at hnumeral
        exact absurd hnumeral (not_isNumeral_plus ds)
      · obtain rfl : ds = es := (List.cons.inj hcs).2
        exact ⟨hnumeral, hsmall, rfl⟩
  · rename_i hplus
    rw [map_ofSecs_number?]
    constructor
    · rintro ⟨hnumeral, hsmall, rfl⟩
      exact ⟨[], cs, .inl rfl, hnumeral, rfl, hsmall, rfl⟩
    · rintro ⟨sign, es, rfl | rfl, hnumeral, rfl, hsmall, rfl⟩
      · exact ⟨hnumeral, hsmall, rfl⟩
      · exact absurd rfl (hplus es)

/-- a token has a unit in it and starts with a digit, so nothing with one in front is a number of
seconds -/
theorem not_isBare_token {t : Token} (h : IsNumeral t.digits) (rest : List Char) (d : Duration) :
    ¬ IsBare (t.text ++ rest) d := by
  rintro ⟨sign, ds, hsign, hnumeral, hcs, -, -⟩
  rcases hsign with rfl | rfl
  · obtain ⟨c, letters, hc⟩ := List.exists_cons_of_ne_nil (letters_ne_nil t.scale)
    have hletter : c ∈ t.scale.letters := by
      rw [hc]
      exact List.mem_cons_self ..
    have hmem : c ∈ ds := by
      rw [List.nil_append] at hcs
      rw [← hcs, Token.text]
      simp [hletter]
    have hdigit := hnumeral.2 c hmem
    rw [isDigit_of_mem_letters c hletter] at hdigit
    cases hdigit
  · have hplus := Token.resumes h rest '+' (by rw [hcs]; rfl)
    cases hplus

theorem not_isBare_of_isRow {cs : List Char} {d e : Duration} (h : IsRow cs d) : ¬ IsBare cs e := by
  obtain ⟨ts, hne, rfl, hfits, -, -⟩ := h
  cases ts with
  | nil => exact absurd rfl hne
  | cons t ts => exact not_isBare_token (hfits t (List.mem_cons_self ..)).numeral (spelling ts) e

theorem bareSecs?_eq_none_of_isRow {cs : List Char} {d : Duration} (h : IsRow cs d) :
    bareSecs? cs = none := by
  cases hb : bareSecs? cs with
  | none => rfl
  | some e => exact absurd (bareSecs?_eq_some.1 hb) (not_isBare_of_isRow h)

theorem not_isBare_nil (d : Duration) : ¬ IsBare [] d := by
  rintro ⟨sign, ds, -, hnumeral, hnil, -⟩
  exact hnumeral.1 (List.append_eq_nil_iff.1 hnil.symm).2

theorem not_isRow_nil (d : Duration) : ¬ IsRow [] d := by
  rintro ⟨ts, hne, hnil, hfits, -⟩
  exact hne ((spelling_eq_nil hfits).1 hnil.symm)

theorem sum?_of_length_le {fuel : Nat} {cs : List Char} (h : cs.length ≤ fuel) :
    sum? fuel zero cs = sum? cs.length zero cs := by
  apply Option.ext
  intro d
  rw [sum?_eq_some_iff h (by decide), sum?_eq_some_iff (Nat.le_refl _) (by decide)]

theorem parse?_eq_some {s : String} {d : Duration} :
    parse? s = some d ↔ IsBare (trimmed s) d ∨ IsRow (trimmed s) d := by
  unfold parse?
  cases hs : trimmed s with
  | nil =>
    refine ⟨fun h => (nomatch h), ?_⟩
    rintro (h | h)
    · exact absurd h (not_isBare_nil d)
    · exact absurd h (not_isRow_nil d)
  | cons c cs =>
    have hsum : sum? (c :: cs).length zero (c :: cs) = some d ↔ IsRow (c :: cs) d := by
      rw [sum?_eq_some_iff (Nat.le_refl _) (by decide), isRest_zero (List.cons_ne_nil c cs)]
    show (bareSecs? (c :: cs)).or (sum? (c :: cs).length zero (c :: cs)) = some d ↔ _
    rw [Option.or_eq_some_iff, bareSecs?_eq_some, hsum]
    constructor
    · rintro (h | ⟨-, h⟩)
      · exact .inl h
      · exact .inr h
    · rintro (h | h)
      · exact .inl h
      · exact .inr ⟨bareSecs?_eq_none_of_isRow h, h⟩

/-- **What is read as a duration.**  A text is read if it is a number of seconds or a row of tokens,
up to blanks around it, and then as just that number or the total of the row; all other texts are
refused.  The reader needs no more rounds than the text has characters. -/
theorem parse?_eq_some_iff (s : String) :
    (∀ d, parse? s = some d ↔ IsBare (trimmed s) d ∨ IsRow (trimmed s) d) ∧
    (parse? s = none ↔ ¬ ∃ d, IsBare (trimmed s) d ∨ IsRow (trimmed s) d) ∧
    ∀ more, sum? ((trimmed s).length + more) zero (trimmed s)
      = sum? (trimmed s).length zero (trimmed s) := by
  refine ⟨fun d => parse?_eq_some, ?_, fun more => sum?_of_length_le (Nat.le_add_right ..)⟩
  rw [Option.eq_none_iff_forall_ne_some, not_exists]
  exact forall_congr' fun d => not_congr parse?_eq_some

/-- a sign or a blank in a row is refused, as are a number without a unit and a unit without one -/
example : parse? " 1h30m " = some (ofSecs 5400) ∧ parse? "+5s" = none ∧ parse? "1h 30m" = none ∧
    parse? "1h30" = none ∧ parse? "ms" = none := by decide

/-! ## one token alone -/

theorem letters_injective {u v : Scale} (h : u.letters = v.letters) : u = v := by
  revert h
  cases u <;> cases v <;> decide

theorem isRow_token {t : Token} (h : IsNumeral t.digits) {d : Duration} :
    IsRow t.text d ↔ t.Fits ∧ t.nanos < limit * 1000000000 ∧ d = ⟨t.nanos⟩ := by
  constructor
  · rintro ⟨ts, hne, hts, hfits, hbound, rfl⟩
    cases ts with
    | nil => exact absurd rfl hne
    | cons b ts =>
      obtain ⟨hb, hrest⟩ := List.forall_mem_cons.1 hfits
      have hcut := @Token.cut t h [] fun c hc => (nomatch hc)
      have hcut' := Token.cut hb.numeral (resumes_spelling hrest)
      rw [List.append_nil, hts, spelling_cons] at hcut
      -- both ways of cutting the text give the same token and the same rest
      have hdigits : t.digits = b.digits := hcut.1.symm.trans hcut'.1
      have hscale : t.scale = b.scale := letters_injective (hcut.2.1.symm.trans hcut'.2.1)
      have hnil : ts = [] := (spelling_eq_nil hrest).1 (hcut'.2.2.symm.trans hcut.2.2)
      have htb : t = b := by
        cases t
        cases b
        cases hdigits
        cases hscale
        rfl
      rw [hnil] at hbound ⊢
      rw [htb]
      exact ⟨hb, hbound, rfl⟩
  · rintro ⟨hfits, hbound, rfl⟩
    refine ⟨[t], List.cons_ne_nil t [], ?_, ?_, hbound, rfl⟩
    · rw [spelling_cons, spelling_nil, List.append_nil]
    · intro b hb
      rwa [List.mem_singleton.1 hb]

theorem isBlank_of_isDigit {c : Char} (h : c.isDigit = true) : isBlank c = false := by
  have hc : 48 ≤ c.toNat ∧ c.toNat ≤ 57 := Char.isDigit_iff_toNat.1 h
  simp [isBlank]
  omega

theorem getLast?_letters (u : Scale) : ∃ c, u.letters.getLast? = some c ∧ isBlank c = false := by
  cases u <;> exact ⟨_, rfl, by decide⟩

theorem trimmed_numeral {ds : List Char} (h : IsNumeral ds) : trimmed (String.ofList ds) = ds := by
  refine trimmed_ofList (fun c hc => ?_) (fun c hc => ?_)
  · exact isBlank_of_isDigit (h.2 c (List.mem_of_mem_head? hc))
  · exact isBlank_of_isDigit (h.2 c (List.mem_of_mem_getLast? hc))

theorem trimmed_token {t : Token} (h : IsNumeral t.digits) :
    trimmed (String.ofList t.text) = t.text := by
  refine trimmed_ofList (fun c hc => ?_) (fun c hc => ?_)
  · have hdigit := Token.resumes h [] c (by rwa [List.append_nil])
    exact isBlank_of_isDigit hdigit
  · obtain ⟨b, hb, hblank⟩ := getLast?_letters t.scale
    rw [Token.text, List.getLast?_append, hb] at hc
    have hbc : b = c := Option.some.inj hc
    rwa [← hbc]

/-- a numeral and a unit are read exactly if they fit -/
theorem parse?_token {t : Token} (h : IsNumeral t.digits) {d : Duration} :
    parse? (String.ofList t.text) = some d ↔
      t.Fits ∧ t.nanos < limit * 1000000000 ∧ d = ⟨t.nanos⟩ := by
  have hbare := not_isBare_token h [] d
  rw [List.append_nil] at hbare
  rw [parse?_eq_some, trimmed_token h, isRow_token h]
  exact or_iff_right hbare

/-! ## durations as they are written -/

theorem isNumeral_toDigits (n : Nat) : IsNumeral (Nat.toDigits 10 n) :=
  ⟨Nat.toDigits_ne_nil, fun _ hc => Nat.isDigit_of_mem_toDigits (by decide) (by decide) hc⟩

theorem value_toDigits (n : Nat) : value (Nat.toDigits 10 n) = n := Nat.ofDigitChars_ten_toDigits

/-- the token of a number in a unit -/
def Token.of (n : Nat) (u : Scale) : Token := ⟨Nat.toDigits 10 n, u⟩

theorem nanos_of (n : Nat) (u : Scale) : (Token.of n u).nanos = n * u.nanos := by
  show value (Nat.toDigits 10 n) * u.nanos = _
  rw [value_toDigits]

theorem fits_of_iff {n : Nat} {u : Scale} :
    (Token.of n u).Fits ↔ n < limit ∧ n * u.factor < limit := by
  have hvalue : value (Token.of n u).digits = n := value_toDigits n
  constructor
  · intro h
    have hsmall := h.small
    have hscaled := h.scaled
    rw [hvalue] at hsmall hscaled
    exact ⟨hsmall, hscaled⟩
  · rintro ⟨hsmall, hscaled⟩
    exact ⟨isNumeral_toDigits n, by rwa [hvalue], by rwa [hvalue]⟩

theorem factor_pos (u : Scale) : 0 < u.factor := by cases u <;> decide
theorem nanos_le (u : Scale) : u.nanos ≤ u.factor * 1000000000 := by cases u <;> decide

/-- a number in a unit is read as long as it can be scaled -/
theorem parse?_of {n : Nat} {u : Scale} (h : n * u.factor < limit) :
    parse? (String.ofList (Token.of n u).text) = some ⟨n * u.nanos⟩ := by
  have hsmall : n < limit := Nat.lt_of_le_of_lt (Nat.le_mul_of_pos_right n (factor_pos u)) h
  have hbound : n * u.nanos < limit * 1000000000 := by
    calc n * u.nanos ≤ n * (u.factor * 1000000000) := Nat.mul_le_mul_left n (nanos_le u)
      _ = n * u.factor * 1000000000 := (Nat.mul_assoc ..).symm
      _ < limit * 1000000000 := Nat.mul_lt_mul_of_pos_right h (by decide)
  refine (parse?_token (isNumeral_toDigits n)).2 ⟨fits_of_iff.2 ⟨hsmall, h⟩, ?_, ?_⟩
  · rwa [nanos_of]
  · rw [nanos_of]

theorem parse?_numeral {n : Nat} (h : n < limit) :
    parse? (String.ofList (Nat.toDigits 10 n)) = some (ofSecs n) := by
  refine parse?_eq_some.2 (.inl ?_)
  rw [trimmed_numeral (isNumeral_toDigits n)]
  refine ⟨[], Nat.toDigits 10 n, .inl rfl, isNumeral_toDigits n, rfl, ?_, ?_⟩
  · rwa [value_toDigits]
  · rw [value_toDigits]

/-- milliseconds are read back as long as their numeral is below the limit -/
theorem parse?_millisText (d : Duration) :
    parse? d.millisText = if d.millis < limit then some (ofMillis d.millis) else none := by
  have htext : d.millisText = String.ofList (Token.of d.millis .milli).text := rfl
  have hread : ∀ e, parse? d.millisText = some e ↔ d.millis < limit ∧ e = ofMillis d.millis := by
    intro e
    rw [htext, parse?_token (isNumeral_toDigits d.millis), fits_of_iff, nanos_of, Scale.factor,
      Scale.nanos, Nat.mul_one, and_self]
    constructor
    · rintro ⟨hsmall, -, rfl⟩
      exact ⟨hsmall, rfl⟩
    · rintro ⟨hsmall, rfl⟩
      exact ⟨hsmall, by omega, rfl⟩
  apply Option.ext
  intro e
  rw [hread]
  by_cases hsmall : d.millis < limit
  · simp [hsmall, eq_comm]
  · simp [hsmall]

end ForgeRelay.Duration
