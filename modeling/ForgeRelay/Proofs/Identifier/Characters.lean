import ForgeRelay.Proofs.Identifier.FixedNames
import Mathlib.Data.List.Destutter
import Mathlib.Logic.Relation

/-!
# Identifiers by characters

`Style.canonical` works on octets: it writes a dot for every octet of a character outside ASCII, and
joins runs of dots in one pass.  The rule for identifiers speaks of characters: it writes one dot
for each character that a name may not have, and replaces two dots by one until no two are left.
`Spells` is this rule, whichever two dots are replaced first.

For domain names both come to the same.  The octets of a character outside ASCII are a run of dots,
which is joined before the cut; after that every octet is a character.  Label names keep their runs
of dots, so there both come to the same for ASCII.

* `joinsAll_iff`                     whichever dots are joined first, one text is left;
* `reflTransGen_chars_substitute`    the dots of the octets join to those of the characters;
* `text_spell_domain`                what is spelled for a domain name, by characters;
* `text_spell_label`                 what is spelled for a label name of ASCII, by characters;
* `spells_iff_canonical`             identifiers are what the rule spells.
-/

namespace ForgeRelay.Identifier

open Relation (ReflTransGen)

/-! ## joining dots -/

/-- two dots become one, somewhere in a text -/
inductive Joins : List Char → List Char → Prop
  | mk (front rest : List Char) : Joins (front ++ '.' :: '.' :: rest) (front ++ '.' :: rest)

/-- two dots become one until no two are left -/
def JoinsAll (cs ds : List Char) : Prop :=
  ReflTransGen Joins cs ds ∧ ¬ ['.', '.'] <:+: ds

/-- not two dots -/
def Apart (c d : Char) : Prop := ¬(c = '.' ∧ d = '.')

instance : DecidableRel Apart := fun c d => inferInstanceAs (Decidable ¬(c = '.' ∧ d = '.'))

theorem not_apart_dots : ¬ Apart '.' '.' := fun h => h ⟨rfl, rfl⟩

theorem not_infix_iff {cs : List Char} : ¬ ['.', '.'] <:+: cs ↔ cs.IsChain Apart := by
  have hpair : ∀ front rest, front ++ ['.', '.'] ++ rest = front ++ '.' :: '.' :: rest :=
    fun front rest => List.append_assoc ..
  rw [List.isChain_iff_forall_rel_of_append_cons_cons]
  constructor
  · rintro h c d front rest rfl ⟨rfl, rfl⟩
    exact h ⟨front, rest, hpair front rest⟩
  · rintro h ⟨front, rest, rfl⟩
    exact h (hpair front rest) ⟨rfl, rfl⟩

section
variable {cs ds es : List Char}

theorem Joins.append_left (front : List Char) (h : Joins cs ds) :
    Joins (front ++ cs) (front ++ ds) := by
  obtain ⟨before, rest⟩ := h
  rw [← List.append_assoc, ← List.append_assoc]
  exact .mk (front ++ before) rest

theorem Joins.append_right (h : Joins cs ds) (rest : List Char) :
    Joins (cs ++ rest) (ds ++ rest) := by
  obtain ⟨front, after⟩ := h
  rw [List.append_assoc, List.append_assoc]
  exact .mk front (after ++ rest)

theorem reflTransGen_append_left (front : List Char) (h : ReflTransGen Joins cs ds) :
    ReflTransGen Joins (front ++ cs) (front ++ ds) :=
  ReflTransGen.lift (front ++ ·) (fun _ _ hstep => hstep.append_left front) _ _ h

theorem reflTransGen_append_right (h : ReflTransGen Joins cs ds) (rest : List Char) :
    ReflTransGen Joins (cs ++ rest) (ds ++ rest) :=
  ReflTransGen.lift (· ++ rest) (fun _ _ hstep => hstep.append_right rest) _ _ h

/-- joining two dots does not change what one pass leaves -/
theorem Joins.destutter'_eq (h : Joins cs ds) (p : Char) :
    cs.destutter' Apart p = ds.destutter' Apart p := by
  obtain ⟨front, rest⟩ := h
  induction front generalizing p with
  | nil =>
    show ('.' :: '.' :: rest).destutter' Apart p = ('.' :: rest).destutter' Apart p
    -- after a dot the pass drops both dots, and after any other character the second one
    by_cases hp : Apart p '.'
    · rw [List.destutter'_cons_pos _ hp, List.destutter'_cons_pos _ hp,
        List.destutter'_cons_neg _ not_apart_dots]
    · rw [List.destutter'_cons_neg _ hp]
  | cons c front ih =>
    show (c :: (front ++ '.' :: '.' :: rest)).destutter' Apart p =
      (c :: (front ++ '.' :: rest)).destutter' Apart p
    by_cases hp : Apart p c
    · rw [List.destutter'_cons_pos _ hp, List.destutter'_cons_pos _ hp, ih]
    · rw [List.destutter'_cons_neg _ hp, List.destutter'_cons_neg _ hp, ih]

theorem Joins.destutter_eq (h : Joins cs ds) : cs.destutter Apart = ds.destutter Apart := by
  obtain ⟨front, rest⟩ := h
  cases front with
  | nil => exact List.destutter'_cons_neg _ not_apart_dots
  | cons c front => exact (Joins.mk front rest).destutter'_eq c

theorem destutter_eq_of_reflTransGen (h : ReflTransGen Joins cs ds) :
    cs.destutter Apart = ds.destutter Apart := by
  induction h with
  | refl => rfl
  | tail _ hstep ih => exact ih.trans hstep.destutter_eq

theorem reflTransGen_destutter' (p : Char) (cs : List Char) :
    ReflTransGen Joins (p :: cs) (cs.destutter' Apart p) := by
  induction cs generalizing p with
  | nil => exact .refl
  | cons c cs ih =>
    by_cases hp : Apart p c
    · rw [List.destutter'_cons_pos _ hp]
      exact reflTransGen_append_left [p] (ih c)
    · obtain ⟨rfl, rfl⟩ := not_not.1 hp
      rw [List.destutter'_cons_neg _ hp]
      exact .head (.mk [] cs) (ih '.')

theorem reflTransGen_destutter (cs : List Char) :
    ReflTransGen Joins cs (cs.destutter Apart) := by
  cases cs with
  | nil => exact .refl
  | cons c cs => exact reflTransGen_destutter' c cs

/-- the text in which no two dots are left is the one that a single pass leaves -/
theorem joinsAll_iff : JoinsAll cs ds ↔ ds = cs.destutter Apart := by
  constructor
  · rintro ⟨hsteps, hnone⟩
    rw [destutter_eq_of_reflTransGen hsteps,
      List.destutter_of_isChain _ _ (not_infix_iff.1 hnone)]
  · rintro rfl
    exact ⟨reflTransGen_destutter cs, not_infix_iff.2 (List.isChain_destutter _ cs)⟩

end

/-- a run of dots joins to one dot -/
theorem reflTransGen_replicate (n : Nat) :
    ReflTransGen Joins (List.replicate (n + 1) '.') ['.'] := by
  induction n with
  | zero => exact .refl
  | succ n ih => exact .head (.mk [] (List.replicate n '.')) ih

namespace Style

/-! ## the rule -/

/-- the characters that a text brings to its identifier, where `lower` gives the lower case form -/
def letters (lower : String → String) : Style → String → List Char
  | .domain, s => (lower s).toList
  | .label, s => s.toList

/-- a zero before a first character at which no name may begin -/
def openStart (style : Style) : List Char → List Char
  | [] => []
  | c :: cs => if style.isEdge c then c :: cs else '0' :: c :: cs

/-- one dot for each character that a name may not have -/
def replaceOthers (style : Style) (cs : List Char) : List Char :=
  cs.map fun c => if style.isPart c then c else '.'

/-- dots are joined in domain names only -/
def Tidied : Style → List Char → List Char → Prop
  | .domain, cs, ds => JoinsAll cs ds
  | .label, cs, ds => ds = cs

/-- a last character at which no name may end gets a zero after it where there is room for one,
and else the last two characters become a zero -/
def closeEnd (style : Style) (cs : List Char) : List Char :=
  match cs.getLast? with
  | none => []
  | some c =>
    if style.isEdge c then cs
    else if cs.length < style.maxLength - 1 then cs ++ ['0']
    else cs.take (cs.length - 2) ++ ['0']

/-- the rule for identifiers, by characters: `t` is what it makes of `s` -/
def Spells (lower : String → String) (style : Style) (s t : String) : Prop :=
  ∃ cs, style.Tidied (style.replaceOthers (style.openStart (style.letters lower s))) cs ∧
    t = String.ofList (style.closeEnd (cs.take style.maxLength))

/-! ## ASCII by characters -/

/-- the characters of ASCII octets -/
def chars (bs : Bytes) : List Char := bs.map fun b => Char.ofNat b.toNat

section
variable {style : Style} {bs : Bytes}

theorem chars_guardStart (h : ∀ b ∈ bs, b < 0x80) :
    chars (style.guardStart bs) = style.openStart (chars bs) := by
  cases bs with
  | nil => rfl
  | cons b bs =>
    have hedge := isEdge_charOf style (h b (List.mem_cons_self ..))
    show chars (if style.isAlphanumeric b then b :: bs else Ascii.zero :: b :: bs) =
      if style.isEdge (Char.ofNat b.toNat) then chars (b :: bs) else '0' :: chars (b :: bs)
    rw [hedge, apply_ite chars]
    rfl

theorem lt_of_mem_guardStart (h : ∀ b ∈ bs, b < 0x80) : ∀ b ∈ style.guardStart bs, b < 0x80 := by
  cases bs with
  | nil => exact h
  | cons b bs =>
    show ∀ a ∈ (if style.isAlphanumeric b then b :: bs else Ascii.zero :: b :: bs), a < 0x80
    split
    · exact h
    · exact List.forall_mem_cons.2 ⟨by decide, h⟩

theorem chars_substitute (h : ∀ b ∈ bs, b < 0x80) :
    chars (style.substitute bs) = style.replaceOthers (chars bs) := by
  unfold chars substitute replaceOthers
  rw [List.map_map, List.map_map]
  refine List.map_congr_left fun b hb => ?_
  show Char.ofNat (if style.admits b then b else Ascii.dot).toNat =
    if style.isPart (Char.ofNat b.toNat) then Char.ofNat b.toNat else '.'
  rw [isPart_charOf style (h b hb)]
  split <;> rfl

theorem chars_guardEnd (h : ∀ b ∈ bs, b < 0x80) :
    chars (style.guardEnd bs) = style.closeEnd (chars bs) := by
  unfold guardEnd closeEnd chars
  rw [List.getLast?_map]
  cases hlast : bs.getLast? with
  | none => rfl
  | some b =>
    have hedge := isEdge_charOf style (h b (List.mem_of_getLast? hlast))
    show List.map _ (if style.isAlphanumeric b then bs else _) =
      if style.isEdge (Char.ofNat b.toNat) then _ else _
    rw [hedge, List.length_map]
    split
    · rfl
    · split
      · exact List.map_append
      · rw [List.map_append, List.map_take]
        rfl

instance : DecidableRel Parted := fun a b =>
  inferInstanceAs (Decidable ¬(a = Ascii.dot ∧ b = Ascii.dot))

theorem cons_collapseAfter (previous : UInt8) (bs : Bytes) :
    previous :: collapseAfter previous bs = bs.destutter' Parted previous := by
  induction bs generalizing previous with
  | nil => rfl
  | cons b bs ih =>
    unfold collapseAfter
    by_cases h : b = Ascii.dot ∧ previous = Ascii.dot
    · rw [if_pos h, ih, List.destutter'_cons_neg _ (not_not.2 h.symm)]
    · rw [if_neg h, ih, List.destutter'_cons_pos _ fun hdots => h hdots.symm]

theorem collapse_eq (bs : Bytes) : collapse bs = bs.destutter Parted := by
  cases bs with
  | nil => rfl
  | cons b bs => exact cons_collapseAfter b bs

theorem chars_tidy_domain (h : ∀ b ∈ bs, b < 0x80) :
    chars (Style.domain.tidy bs) = (chars bs).destutter Apart := by
  show chars (collapse bs) = _
  rw [collapse_eq]
  refine List.map_destutter fun a ha b hb => not_congr ?_
  rw [charOf_eq_iff (h a ha) (a := Ascii.dot) rfl, charOf_eq_iff (h b hb) (a := Ascii.dot) rfl]

end

/-! ## the octets of a character -/

theorem exists_charOf {c : Char} (h : c.toNat < 128) :
    ∃ b : UInt8, b < 0x80 ∧ Char.ofNat b.toNat = c := by
  have hsingle : ∀ d ∈ (String.ofList [c]).toList, d.toNat < 128 := by
    intro d hd
    rw [String.toList_ofList, List.mem_singleton] at hd
    rw [hd]
    exact h
  obtain ⟨bs, hascii, htext⟩ := exists_text hsingle
  obtain ⟨b, rest, rfl, hb, -⟩ := List.map_eq_cons_iff.1 (String.ofList_injective htext)
  exact ⟨b, hascii b (List.mem_cons_self ..), hb⟩

theorem le_ofNat {n : Nat} (h : 128 ≤ n) (hn : n < 256) : 0x80 ≤ UInt8.ofNat n := by
  rw [UInt8.le_iff_toNat_le, UInt8.toNat_ofNat', Nat.mod_eq_of_lt hn]
  exact h

/-- a character outside ASCII has octets outside ASCII only, and at least one -/
theorem utf8EncodeChar_of_le {c : Char} (h : 128 ≤ c.toNat) :
    ∃ b bs, String.utf8EncodeChar c = b :: bs ∧ ∀ a ∈ b :: bs, 0x80 ≤ a := by
  have hlong : ¬ c.val.toNat ≤ 127 := Nat.not_le.2 h
  unfold String.utf8EncodeChar
  dsimp only
  rw [if_neg hlong]
  split
  · refine ⟨_, _, rfl, List.forall_mem_cons.2 ⟨le_ofNat ?_ ?_,
      List.forall_mem_singleton.2 (le_ofNat ?_ ?_)⟩⟩ <;> omega
  · split
    · refine ⟨_, _, rfl, List.forall_mem_cons.2 ⟨le_ofNat ?_ ?_, List.forall_mem_cons.2
        ⟨le_ofNat ?_ ?_, List.forall_mem_singleton.2 (le_ofNat ?_ ?_)⟩⟩⟩ <;> omega
    · refine ⟨_, _, rfl, List.forall_mem_cons.2 ⟨le_ofNat ?_ ?_, List.forall_mem_cons.2
        ⟨le_ofNat ?_ ?_, List.forall_mem_cons.2 ⟨le_ofNat ?_ ?_,
          List.forall_mem_singleton.2 (le_ofNat ?_ ?_)⟩⟩⟩⟩ <;> omega

section
variable {style : Style}

theorem isAlphanumeric_of_le {b : UInt8} (h : 0x80 ≤ b) : style.isAlphanumeric b = false := by
  rw [← Bool.not_eq_true]
  exact fun hb => UInt8.not_le.2 (lt_of_isAlphanumeric hb) h

theorem admits_of_le {b : UInt8} (h : 0x80 ≤ b) : style.admits b = false := by
  rw [← Bool.not_eq_true]
  exact fun hb => UInt8.not_le.2 (lt_of_admits hb) h

theorem isPart_of_le {c : Char} (h : 128 ≤ c.toNat) : style.isPart c = false := by
  rw [← Bool.not_eq_true]
  exact fun hc => Nat.not_le.2 (toNat_lt_of_isPart hc) h

theorem isEdge_of_le {c : Char} (h : 128 ≤ c.toNat) : style.isEdge c = false := by
  have hpart : style.isPart c = false := isPart_of_le h
  unfold isPart at hpart
  simp only [Bool.or_eq_false_iff] at hpart
  exact hpart.1.1.1

/-- the zero goes before the first octet where it goes before the first character -/
theorem guardStart_flatMap (style : Style) (cs : List Char) :
    style.guardStart (cs.flatMap String.utf8EncodeChar) =
      (style.openStart cs).flatMap String.utf8EncodeChar := by
  cases cs with
  | nil => rfl
  | cons c cs =>
    have hfirst : ∃ b bs, String.utf8EncodeChar c = b :: bs ∧
        style.isAlphanumeric b = style.isEdge c := by
      by_cases hc : c.toNat < 128
      · obtain ⟨b, hb, rfl⟩ := exists_charOf hc
        exact ⟨b, [], Utf8.utf8EncodeChar_of_lt hb, (isEdge_charOf style hb).symm⟩
      · -- outside ASCII neither is a letter or digit
        obtain ⟨b, bs, hbs, hhigh⟩ := utf8EncodeChar_of_le (Nat.not_lt.1 hc)
        refine ⟨b, bs, hbs, ?_⟩
        rw [isAlphanumeric_of_le (hhigh b (List.mem_cons_self ..)),
          isEdge_of_le (Nat.not_lt.1 hc)]
    obtain ⟨b, bs, hbs, hedge⟩ := hfirst
    have hzero : String.utf8EncodeChar '0' = [Ascii.zero] := rfl
    unfold openStart
    rw [apply_ite (List.flatMap String.utf8EncodeChar), List.flatMap_cons (x := '0'), hzero,
      List.flatMap_cons, hbs]
    show (if style.isAlphanumeric b then _ else _) = _
    rw [hedge]
    rfl

/-- one dot for each octet of a character joins to one dot for the character -/
theorem reflTransGen_chars_utf8EncodeChar (style : Style) (c : Char) :
    ReflTransGen Joins (chars (style.substitute (String.utf8EncodeChar c)))
      (style.replaceOthers [c]) := by
  by_cases hc : c.toNat < 128
  · obtain ⟨b, hb, rfl⟩ := exists_charOf hc
    rw [Utf8.utf8EncodeChar_of_lt hb, chars_substitute (List.forall_mem_singleton.2 hb)]
    exact .refl
  · obtain ⟨b, bs, hbs, hhigh⟩ := utf8EncodeChar_of_le (Nat.not_lt.1 hc)
    have hdots : chars (style.substitute (b :: bs)) = List.replicate (bs.length + 1) '.' := by
      unfold substitute chars
      rw [List.map_map]
      refine List.map_eq_replicate_iff.2 fun a ha => ?_
      show Char.ofNat (if style.admits a then a else Ascii.dot).toNat = '.'
      rw [admits_of_le (hhigh a ha)]
      rfl
    have hdot : style.replaceOthers [c] = ['.'] := by
      unfold replaceOthers
      rw [List.map_singleton, isPart_of_le (Nat.not_lt.1 hc)]
      rfl
    rw [hbs, hdots, hdot]
    exact reflTransGen_replicate bs.length

theorem reflTransGen_chars_substitute (style : Style) (cs : List Char) :
    ReflTransGen Joins (chars (style.substitute (cs.flatMap String.utf8EncodeChar)))
      (style.replaceOthers cs) := by
  induction cs with
  | nil => exact .refl
  | cons c cs ih =>
    have hoctets : chars (style.substitute ((c :: cs).flatMap String.utf8EncodeChar)) =
        chars (style.substitute (String.utf8EncodeChar c)) ++
          chars (style.substitute (cs.flatMap String.utf8EncodeChar)) := by
      unfold chars substitute
      rw [List.flatMap_cons, List.map_append, List.map_append]
    rw [hoctets]
    exact (reflTransGen_append_right (style.reflTransGen_chars_utf8EncodeChar c) _).trans
      (reflTransGen_append_left (style.replaceOthers [c]) ih)

end

/-! ## what is spelled, by characters -/

/-- after the alphabet and the dots every octet is a character, so the cut and the end are the same
for both -/
theorem text_guardEnd_take {style : Style} {bs : Bytes} (h : ∀ b ∈ bs, b < 0x80) :
    text (style.guardEnd (bs.take style.maxLength)) =
      String.ofList (style.closeEnd ((chars bs).take style.maxLength)) := by
  show String.ofList (chars _) = _
  rw [chars_guardEnd fun b hb => h b (List.mem_of_mem_take hb), chars, List.map_take]
  rfl

theorem lt_of_mem_substitute {style : Style} {bs : Bytes} {b : UInt8}
    (h : b ∈ style.substitute bs) : b < 0x80 := lt_of_admits (admits_of_mem_substitute h)

theorem text_spell_domain (s : String) :
    text (Style.domain.spell (Utf8.encode s)) = String.ofList (Style.domain.closeEnd
      (((Style.domain.replaceOthers (Style.domain.openStart s.toList)).destutter Apart).take
        Style.domain.maxLength)) := by
  have hencode : Utf8.encode s = s.toList.flatMap String.utf8EncodeChar := by
    rw [← Utf8.encode_ofList, String.ofList_toList]
  have hascii : ∀ b ∈ Style.domain.tidy (Style.domain.substitute (Style.domain.guardStart
      (Utf8.encode s))), b < 0x80 := fun b hb => lt_of_mem_substitute (mem_of_mem_tidy hb)
  unfold spell
  -- the dots of a character's octets are gone once dots are joined, and so before the cut
  rw [text_guardEnd_take hascii, chars_tidy_domain fun b => lt_of_mem_substitute, hencode,
    guardStart_flatMap, destutter_eq_of_reflTransGen (reflTransGen_chars_substitute ..)]

theorem text_spell_label {s : String} (h : ∀ c ∈ s.toList, c.toNat < 128) :
    text (Style.label.spell (Utf8.encode s)) = String.ofList (Style.label.closeEnd
      ((Style.label.replaceOthers (Style.label.openStart s.toList)).take
        Style.label.maxLength)) := by
  obtain ⟨bs, hascii, rfl⟩ := exists_text h
  have hencode : Utf8.encode (text bs) = bs := Utf8.encode_ofList_charOf hascii
  have hchars : (text bs).toList = chars bs := String.toList_ofList
  show text (Style.label.guardEnd ((Style.label.substitute _).take _)) = _
  rw [text_guardEnd_take fun b => lt_of_mem_substitute, hencode, hchars,
    chars_substitute (lt_of_mem_guardStart hascii), chars_guardStart hascii]

/-! ## identifiers -/

section
variable {lower : String → String} {s t : String}

theorem spells_domain_iff :
    Style.domain.Spells lower s t ↔ Style.domain.canonicalBy lower s = t := by
  rw [canonicalBy_eq]
  show (∃ cs, JoinsAll _ cs ∧ t = _) ↔ text (Style.domain.spell (Utf8.encode (lower s))) = t
  rw [text_spell_domain]
  constructor
  · rintro ⟨cs, hcs, rfl⟩
    rw [joinsAll_iff.1 hcs]
    rfl
  · rintro rfl
    exact ⟨_, joinsAll_iff.2 rfl, rfl⟩

theorem spells_label_iff (h : ∀ c ∈ s.toList, c.toNat < 128) :
    Style.label.Spells lower s t ↔ labelName s = t := by
  show (∃ cs, cs = _ ∧ t = _) ↔ Style.label.canonical s = t
  rw [canonical_eq]
  show _ ↔ text (Style.label.spell (Utf8.encode s)) = t
  rw [text_spell_label h, exists_eq_left, eq_comm]
  rfl

end

/-- **Identifiers are what the rule spells.**  With any lower case form, and so with the one in use,
the domain name of a text is the one text that the rule makes of its characters, whichever two dots
are joined first.  The label name is what the rule makes of ASCII characters. -/
theorem spells_iff_canonical :
    (∀ lower s t, Style.domain.Spells lower s t ↔ Style.domain.canonicalBy lower s = t) ∧
    (∀ s t, Style.domain.Spells lowered s t ↔ domainName s = t) ∧
    ∀ lower s, (∀ c ∈ s.toList, c.toNat < 128) →
      ∀ t, Style.label.Spells lower s t ↔ labelName s = t := by
  refine ⟨fun lower s t => spells_domain_iff, fun s t => ?_, fun lower s h t => spells_label_iff h⟩
  rw [spells_domain_iff, canonicalBy_lowered]
  rfl

/-- the dots for the octets of `é` and `Ü` are joined with those beside them -/
theorem spells_iff_canonical_mixed :
    (∀ c ∈ "-my app/".toList, c.toNat < 128) ∧
    Style.label.Spells lowered "-my app/" "0-my.app.0" ∧
    Style.domain.Spells lowered "Café/Ü.x" "caf.x" := by
  obtain ⟨-, hdomain, hlabel⟩ := spells_iff_canonical
  have hall : "-my app/".toList.all (fun c => decide (c.toNat < 128)) = true := by decide
  have hascii : ∀ c ∈ "-my app/".toList, c.toNat < 128 :=
    fun c hc => of_decide_eq_true (List.all_eq_true.1 hall c hc)
  exact ⟨hascii, (hlabel lowered _ hascii _).2 (by decide), (hdomain _ _).2 (by decide)⟩

/-- label names keep a dot for each octet, so that here the rule would spell one dot less -/
example : labelName "é" = "0..0" := by decide

end Style

end ForgeRelay.Identifier
