import ForgeRelay.Identifier
import Mathlib.Data.List.Chain
import Mathlib.Data.List.Infix

/-!
# The grammar of identifiers

`Style.IsName` says what a name of a style is, in terms of its characters: its length, the
characters that it may have, those at which it may begin and end, and for domain names that no dot
follows another.  `Style.Fits` says the same of octets, which is what an identifier is made from.

The steps of `Style.spell` are followed one by one: after `guardStart` and `substitute` the octets
`Begin` as a name does, `tidy` and a cut keep this, and `guardEnd` makes a name of them.

* `Style.fits_spell`             what is spelled from octets fits the style;
* `Style.Fits.isName`            octets that fit are the octets of a name;
* `Style.canonical_isName`       the identifier of a text is a name, or empty as the text is.
-/

namespace ForgeRelay.Identifier.Style

/-! ## names -/

/-- the characters at which a name may begin and end -/
def isEdge : Style → Char → Bool
  | .domain, c => c.isLower || c.isDigit
  | .label, c => c.isAlphanum

/-- the characters that a name may have -/
def isPart (style : Style) (c : Char) : Bool :=
  style.isEdge c || c = '.' || c = '-' || (style = .label && c = '_')

structure IsName (style : Style) (s : String) : Prop where
  short : s.utf8ByteSize ≤ style.maxLength
  parts : ∀ c ∈ s.toList, style.isPart c = true
  first : ∃ c ∈ s.toList.head?, style.isEdge c = true
  last : ∃ c ∈ s.toList.getLast?, style.isEdge c = true
  dots : style = .domain → ¬ ['.', '.'] <:+: s.toList

/-! ## octets -/

/-- not two dots -/
def Parted (a b : UInt8) : Prop := ¬(a = Ascii.dot ∧ b = Ascii.dot)

/-- octets that begin as a name does, of any length and whatever is last -/
structure Begins (style : Style) (bs : Bytes) : Prop where
  parts : ∀ b ∈ bs, style.admits b = true
  first : ∃ b ∈ bs.head?, style.isAlphanumeric b = true
  dots : style = .domain → bs.IsChain Parted

structure Fits (style : Style) (bs : Bytes) : Prop extends Begins style bs where
  short : bs.length ≤ style.maxLength
  last : ∃ b ∈ bs.getLast?, style.isAlphanumeric b = true

theorem isAlphanumeric_zero (style : Style) : style.isAlphanumeric Ascii.zero = true := by
  cases style <;> decide

theorem admits_dot (style : Style) : style.admits Ascii.dot = true := by
  cases style <;> decide

theorem admits_of_isAlphanumeric {style : Style} {b : UInt8} (h : style.isAlphanumeric b = true) :
    style.admits b = true := by
  unfold admits
  rw [h, Bool.or_true, Bool.true_or]

/-- the cut never comes so early that there is no first octet, or too few to make room at the end -/
theorem lt_maxLength (style : Style) : 62 < style.maxLength := by
  cases style <;> decide

/-! ## the start and the alphabet -/

theorem first_guardStart {style : Style} {bs : Bytes} (h : bs ≠ []) :
    ∃ b ∈ (style.guardStart bs).head?, style.isAlphanumeric b = true := by
  cases bs with
  | nil => exact absurd rfl h
  | cons b bs =>
    show ∃ c ∈ (if style.isAlphanumeric b then b :: bs else Ascii.zero :: b :: bs).head?, _
    split
    · rename_i hb
      exact ⟨b, rfl, hb⟩
    · exact ⟨Ascii.zero, rfl, style.isAlphanumeric_zero⟩

theorem admits_of_mem_substitute {style : Style} {bs : Bytes} {b : UInt8}
    (h : b ∈ style.substitute bs) : style.admits b = true := by
  obtain ⟨a, -, rfl⟩ := List.mem_map.1 h
  split
  · rename_i ha
    exact ha
  · exact style.admits_dot

/-- a first octet that is a letter or digit stays -/
theorem first_substitute {style : Style} {bs : Bytes}
    (h : ∃ b ∈ bs.head?, style.isAlphanumeric b = true) :
    ∃ b ∈ (style.substitute bs).head?, style.isAlphanumeric b = true := by
  obtain ⟨b, hb, hedge⟩ := h
  refine ⟨b, ?_, hedge⟩
  rw [Option.mem_def] at hb ⊢
  unfold substitute
  rw [List.head?_map, hb, Option.map_some, if_pos (admits_of_isAlphanumeric hedge)]

/-! ## runs of dots -/

theorem collapseAfter_sublist (previous : UInt8) (bs : Bytes) :
    (collapseAfter previous bs).Sublist bs := by
  induction bs generalizing previous with
  | nil => exact .refl _
  | cons b bs ih =>
    unfold collapseAfter
    split
    · exact (ih previous).cons b
    · exact (ih b).cons_cons b

/-- after a dot no dot is written -/
theorem isChain_collapseAfter (previous : UInt8) (bs : Bytes) :
    (previous :: collapseAfter previous bs).IsChain Parted := by
  induction bs generalizing previous with
  | nil => exact .singleton _
  | cons b bs ih =>
    unfold collapseAfter
    split
    · exact ih previous
    · rename_i hb
      exact .cons_cons (fun h => hb ⟨h.2, h.1⟩) (ih b)

theorem mem_of_mem_tidy {style : Style} {bs : Bytes} {b : UInt8} (h : b ∈ style.tidy bs) :
    b ∈ bs := by
  cases style with
  | label => exact h
  | domain =>
    cases bs with
    | nil => exact h
    | cons a bs =>
      rcases List.mem_cons.1 h with rfl | h
      · exact List.mem_cons_self ..
      · exact List.mem_cons_of_mem _ ((collapseAfter_sublist a bs).mem h)

theorem head?_tidy (style : Style) (bs : Bytes) : (style.tidy bs).head? = bs.head? := by
  cases style with
  | label => rfl
  | domain => cases bs <;> rfl

theorem isChain_tidy (bs : Bytes) : (Style.domain.tidy bs).IsChain Parted := by
  cases bs with
  | nil => exact .nil
  | cons a bs => exact isChain_collapseAfter a bs

theorem begins_tidy {style : Style} {bs : Bytes} (h : bs ≠ []) :
    style.Begins (style.tidy (style.substitute (style.guardStart bs))) := by
  refine ⟨fun b hb => admits_of_mem_substitute (mem_of_mem_tidy hb), ?_, ?_⟩
  · rw [head?_tidy]
    exact first_substitute (first_guardStart h)
  · rintro rfl
    exact isChain_tidy _

/-! ## the cut and the end -/

theorem Begins.take {style : Style} {bs : Bytes} (h : style.Begins bs) {n : Nat} (hn : n ≠ 0) :
    style.Begins (bs.take n) := by
  refine ⟨fun b hb => h.parts b (List.mem_of_mem_take hb), ?_, fun hs => (h.dots hs).take n⟩
  rw [List.head?_take, if_neg hn]
  exact h.first

theorem Begins.append_zero {style : Style} {bs : Bytes} (h : style.Begins bs) :
    style.Begins (bs ++ [Ascii.zero]) := by
  refine ⟨fun b hb => ?_, ?_, fun hs => ?_⟩
  · rcases List.mem_append.1 hb with hb | hb
    · exact h.parts b hb
    · rw [List.mem_singleton.1 hb]
      exact admits_of_isAlphanumeric style.isAlphanumeric_zero
  · obtain ⟨b, hb, hedge⟩ := h.first
    exact ⟨b, by rw [List.head?_append, hb]; rfl, hedge⟩
  · refine (h.dots hs).append (.singleton _) fun a _ b hb => ?_
    -- the zero that is appended is no dot
    rw [List.head?_cons, Option.mem_some] at hb
    subst hb
    exact fun hdots => absurd hdots.2 (by decide)

theorem fits_append_zero {style : Style} {bs : Bytes} (h : style.Begins bs)
    (hshort : bs.length < style.maxLength) : style.Fits (bs ++ [Ascii.zero]) := by
  refine ⟨h.append_zero, ?_, Ascii.zero, ?_, style.isAlphanumeric_zero⟩
  · rw [List.length_append]
    exact hshort
  · rw [List.getLast?_concat]
    rfl

/-- what the end is guarded from begins as a name and is short enough, so it becomes a name -/
theorem fits_guardEnd {style : Style} {bs : Bytes} (h : style.Begins bs)
    (hshort : bs.length ≤ style.maxLength) : style.Fits (style.guardEnd bs) := by
  have hmax := style.lt_maxLength
  unfold guardEnd
  split
  · rename_i hnone
    obtain ⟨b, hb, -⟩ := h.first
    rw [List.getLast?_eq_none_iff.1 hnone] at hb
    cases hb
  · rename_i b hlast
    split
    · rename_i hedge
      exact ⟨h, hshort, b, hlast, hedge⟩
    · split
      · exact fits_append_zero h (by omega)
      · -- at least sixty octets are left, so that the first one stays
        refine fits_append_zero (h.take (by omega)) ?_
        rw [List.length_take]
        omega

theorem fits_spell {style : Style} {bs : Bytes} (h : bs ≠ []) : style.Fits (style.spell bs) := by
  have hmax := style.lt_maxLength
  refine fits_guardEnd ((begins_tidy h).take (by omega)) ?_
  rw [List.length_take]
  exact Nat.min_le_left ..

theorem spell_nil (style : Style) : style.spell [] = [] := by
  cases style <;> rfl

/-! ## octets of names -/

section
variable {style : Style} {b : UInt8}

/-- a character lies between two others as its octet lies between theirs -/
theorem between_charOf (h : b < 0x80) {lo hi : UInt8} {first last : UInt32}
    (hlo : first.toNat = lo.toNat) (hhi : last.toNat = hi.toNat) :
    (Char.ofNat b.toNat).val ≥ first ∧ (Char.ofNat b.toNat).val ≤ last ↔ lo ≤ b ∧ b ≤ hi := by
  have hc : (Char.ofNat b.toNat).val.toNat = b.toNat := Utf8.toNat_charOf h
  rw [ge_iff_le, UInt32.le_iff_toNat_le, UInt32.le_iff_toNat_le, hc, hlo, hhi,
    UInt8.le_iff_toNat_le, UInt8.le_iff_toNat_le]

theorem isLower_charOf (h : b < 0x80) : (Char.ofNat b.toNat).isLower = Ascii.isLower b := by
  show (decide _ && decide _) = (decide _ && decide _)
  rw [← Bool.decide_and, ← Bool.decide_and]
  exact decide_eq_decide.2 (between_charOf h rfl rfl)

theorem isUpper_charOf (h : b < 0x80) : (Char.ofNat b.toNat).isUpper = Ascii.isUpper b := by
  show decide _ = (decide _ && decide _)
  rw [← Bool.decide_and]
  exact decide_eq_decide.2 (between_charOf h rfl rfl)

theorem isDigit_charOf (h : b < 0x80) : (Char.ofNat b.toNat).isDigit = Ascii.isDigit b := by
  show (decide _ && decide _) = (decide _ && decide _)
  rw [← Bool.decide_and, ← Bool.decide_and]
  exact decide_eq_decide.2 (between_charOf h rfl rfl)

theorem isEdge_charOf (style : Style) (h : b < 0x80) :
    style.isEdge (Char.ofNat b.toNat) = style.isAlphanumeric b := by
  cases style with
  | domain =>
    show (_ || _) = (_ || _)
    rw [isLower_charOf h, isDigit_charOf h]
  | label =>
    show ((_ || _) || _) = ((_ || _) || _)
    rw [isUpper_charOf h, isLower_charOf h, isDigit_charOf h, Bool.or_comm, Bool.or_assoc]

theorem charOf_eq_iff {a : UInt8} {c : Char} (h : b < 0x80) (ha : a.toNat = c.toNat) :
    Char.ofNat b.toNat = c ↔ b = a := by
  rw [← UInt8.toNat_inj, ha]
  constructor
  · rintro rfl
    exact (Utf8.toNat_charOf h).symm
  · intro hn
    rw [hn]
    exact Char.ofNat_toNat c

theorem isPart_charOf (style : Style) (h : b < 0x80) :
    style.isPart (Char.ofNat b.toNat) = style.admits b := by
  have hdot : Char.ofNat b.toNat = '.' ↔ b = Ascii.dot := charOf_eq_iff h rfl
  have hminus : Char.ofNat b.toNat = '-' ↔ b = Ascii.minus := charOf_eq_iff h rfl
  have hunder : Char.ofNat b.toNat = '_' ↔ b = 0x5f := charOf_eq_iff h rfl
  unfold isPart admits
  rw [isEdge_charOf style h]
  simp only [hdot, hminus, hunder]
  cases style.isAlphanumeric b <;> simp

theorem lt_of_isAlphanumeric {style : Style} (h : style.isAlphanumeric b = true) : b < 0x80 := by
  rw [UInt8.lt_iff_toNat_lt]
  cases style <;>
    simp only [isAlphanumeric, Ascii.isAlphanumeric, Ascii.isDigit, Ascii.isUpper, Ascii.isLower,
      Bool.or_eq_true, Bool.and_eq_true, decide_eq_true_eq, UInt8.le_iff_toNat_le] at h <;>
    simp at h ⊢ <;> omega

/-- every octet of a name is ASCII -/
theorem lt_of_admits {style : Style} (h : style.admits b = true) : b < 0x80 := by
  unfold admits at h
  simp only [Bool.or_eq_true, Bool.and_eq_true, decide_eq_true_eq] at h
  rcases h with ((rfl | rfl) | h) | ⟨-, rfl⟩
  · decide
  · decide
  · exact lt_of_isAlphanumeric h
  · decide

end

/-- the text of ASCII octets -/
def text (bs : Bytes) : String := String.ofList (bs.map fun b => Char.ofNat b.toNat)

theorem Fits.isName {style : Style} {bs : Bytes} (h : style.Fits bs) :
    style.IsName (text bs) := by
  have hascii : ∀ b ∈ bs, b < 0x80 := fun b hb => lt_of_admits (h.parts b hb)
  refine ⟨?_, fun c hc => ?_, ?_, ?_, fun hs hdots => ?_⟩
  · rw [← Utf8.length_encode, text, Utf8.encode_ofList_charOf hascii]
    exact h.short
  · rw [text, String.toList_ofList] at hc
    obtain ⟨b, hb, rfl⟩ := List.mem_map.1 hc
    rw [isPart_charOf style (hascii b hb)]
    exact h.parts b hb
  · obtain ⟨b, hb, hedge⟩ := h.first
    refine ⟨Char.ofNat b.toNat, ?_, ?_⟩
    · rw [text, String.toList_ofList, List.head?_map, hb]
      rfl
    · rwa [isEdge_charOf style (hascii b (List.mem_of_mem_head? hb))]
  · obtain ⟨b, hb, hedge⟩ := h.last
    refine ⟨Char.ofNat b.toNat, ?_, ?_⟩
    · rw [text, String.toList_ofList, List.getLast?_map, hb]
      rfl
    · rwa [isEdge_charOf style (hascii b (List.mem_of_mem_getLast? hb))]
  · rw [text, String.toList_ofList, List.infix_map_iff] at hdots
    obtain ⟨pair, hpart, hpair⟩ := hdots
    -- two dots next to each other would be two octets next to each other
    obtain ⟨a, rest, rfl, ha, hrest⟩ := List.map_eq_cons_iff.1 hpair.symm
    obtain ⟨b, rest, rfl, hb, hnil⟩ := List.map_eq_cons_iff.1 hrest
    obtain rfl := List.map_eq_nil_iff.1 hnil
    have hlt : ∀ c ∈ [a, b], c < 0x80 := fun c hc => hascii c (hpart.mem hc)
    have hchain := List.IsChain.infix (h.dots hs) hpart
    exact List.isChain_pair.1 hchain
      ⟨(charOf_eq_iff (hlt a (by simp)) rfl).1 ha, (charOf_eq_iff (hlt b (by simp)) rfl).1 hb⟩

/-! ## identifiers -/

theorem decode?_spell (style : Style) (bs : Bytes) :
    Utf8.decode? (style.spell bs) = some (text (style.spell bs)) := by
  refine Utf8.decode?_ascii fun b hb => ?_
  by_cases hbs : bs = []
  · rw [hbs, spell_nil] at hb
    cases hb
  · exact lt_of_admits ((fits_spell hbs).parts b hb)

theorem canonical_eq (style : Style) (s : String) :
    style.canonical s = text (style.spell (style.source s)) := by
  unfold canonical
  rw [decode?_spell, Option.getD_some]

theorem source_eq_nil (style : Style) {s : String} : style.source s = [] ↔ s = "" := by
  cases style with
  | domain =>
    show Utf8.encode _ = [] ↔ _
    rw [Utf8.encode_eq_nil, String.ofList_eq_empty_iff, lowerCase_eq_nil, String.toList_eq_nil_iff]
  | label => exact Utf8.encode_eq_nil

/-- what is spelled is a text, which is empty only if there was nothing to spell -/
theorem text_spell_eq_empty (style : Style) {bs : Bytes} :
    text (style.spell bs) = "" ↔ bs = [] := by
  constructor
  · intro h
    refine Classical.byContradiction fun hbs => ?_
    have hfits : style.Fits (style.spell bs) := fits_spell hbs
    obtain ⟨c, hc, -⟩ := hfits.isName.first
    rw [h] at hc
    cases hc
  · rintro rfl
    rw [spell_nil]
    rfl

/-- **Identifiers are names of their style.**  The identifier of a text is empty only for the empty
text, and else has the length, the characters, the ends and, in domain names, the single dots of a
name.  What is spelled is ASCII, whatever octets the lower case form of a text has; and where the
end is overwritten two octets are there to be taken away. -/
theorem canonical_isName (style : Style) (s : String) :
    (style.canonical s = "" ↔ s = "") ∧
    (s = "" ∨ style.IsName (style.canonical s)) ∧
    Utf8.decode? (style.spell (style.source s)) = some (style.canonical s) ∧
    ∀ bs : Bytes,
      let cut := (style.tidy (style.substitute (style.guardStart bs))).take style.maxLength
      (cut.length < style.maxLength - 1 ∨ 2 ≤ cut.length) ∧
      ∃ name, Utf8.decode? (style.spell bs) = some name ∧ (name = "" ↔ bs = []) ∧
        (bs = [] ∨ style.IsName name) := by
  have hname : ∀ bs, bs = [] ∨ style.IsName (text (style.spell bs)) := fun bs =>
    (Classical.em (bs = [])).imp_right fun hbs => (fits_spell hbs).isName
  have hmax := style.lt_maxLength
  refine ⟨?_, ?_, ?_, fun bs => ⟨by omega, _, style.decode?_spell bs, ?_, hname bs⟩⟩
  · rw [canonical_eq, text_spell_eq_empty, source_eq_nil]
  · rw [canonical_eq]
    exact (hname (style.source s)).imp_left style.source_eq_nil.1
  · rw [canonical_eq]
    exact style.decode?_spell _
  · exact style.text_spell_eq_empty

/-- what ends in a hyphen is ended by a zero, and two dots are one -/
example : Style.domain.canonical "A..b-" = "a.b-0" := by decide

end ForgeRelay.Identifier.Style
