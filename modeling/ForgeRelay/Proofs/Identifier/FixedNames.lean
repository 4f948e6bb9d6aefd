import ForgeRelay.Proofs.Identifier.Grammar
import ForgeRelay.Proofs.Text.Letters

/-!
# Names are kept

No step of `Style.spell` changes octets that `Fits` the style already, and the octets of a name fit.
So a name is its own identifier; and since every identifier is a name or empty, a second pass
changes nothing.

Of the lower case form only two things are used: that a text that is not empty has one that is not
empty, and that ASCII without capitals is its own.  `IsLowerCasing` says so, and `Style.canonicalBy`
makes identifiers with any such form.

* `Style.Fits.spell_eq`            octets that fit are spelled as they are;
* `Style.IsName.fits`              the octets of a name fit;
* `Style.IsName.canonicalBy_eq`    a name is its own identifier;
* `Style.fixes_exactly_names`      the texts that are kept are the names and the empty text.
-/

namespace ForgeRelay.Identifier

namespace Style

/-! ## octets that fit are kept -/

section
variable {style : Style} {bs : Bytes}

theorem guardStart_of_first (h : ∃ b ∈ bs.head?, style.isAlphanumeric b = true) :
    style.guardStart bs = bs := by
  cases bs with
  | nil => rfl
  | cons b bs =>
    obtain ⟨c, hc, hedge⟩ := h
    have hcb : b = c := Option.some.inj hc
    subst hcb
    exact if_pos hedge

theorem substitute_of_parts (h : ∀ b ∈ bs, style.admits b = true) :
    style.substitute bs = bs := by
  have hkeep : ∀ b ∈ bs, (if style.admits b then b else Ascii.dot) = b := by
    intro b hb
    rw [if_pos (h b hb)]
  unfold substitute
  rw [List.map_congr_left hkeep, List.map_id']

theorem collapseAfter_of_isChain {previous : UInt8} (h : (previous :: bs).IsChain Parted) :
    collapseAfter previous bs = bs := by
  induction bs generalizing previous with
  | nil => rfl
  | cons b bs ih =>
    have hparted : Parted previous b := h.rel
    have hdots : ¬(b = Ascii.dot ∧ previous = Ascii.dot) := fun hd => hparted ⟨hd.2, hd.1⟩
    rw [collapseAfter, if_neg hdots, ih h.tail]

theorem tidy_of_dots (h : style = .domain → bs.IsChain Parted) : style.tidy bs = bs := by
  cases style with
  | label => rfl
  | domain =>
    cases bs with
    | nil => rfl
    | cons b bs =>
      show b :: collapseAfter b bs = b :: bs
      rw [collapseAfter_of_isChain (h rfl)]

theorem guardEnd_of_last (h : ∃ b ∈ bs.getLast?, style.isAlphanumeric b = true) :
    style.guardEnd bs = bs := by
  obtain ⟨b, hb, hedge⟩ := h
  unfold guardEnd
  rw [hb]
  exact if_pos hedge

theorem Fits.spell_eq (h : style.Fits bs) : style.spell bs = bs := by
  unfold spell
  rw [guardStart_of_first h.first, substitute_of_parts h.parts, tidy_of_dots h.dots,
    List.take_of_length_le h.short, guardEnd_of_last h.last]

end

/-! ## the octets of a name -/

theorem isEdge_domain {c : Char} : Style.domain.isEdge c = true ↔
    (97 ≤ c.toNat ∧ c.toNat ≤ 122) ∨ (48 ≤ c.toNat ∧ c.toNat ≤ 57) := by
  show (c.isLower || c.isDigit) = true ↔ _
  rw [Bool.or_eq_true, isLower_iff, Char.isDigit_iff_toNat]
  exact Iff.rfl

theorem isEdge_label {c : Char} : Style.label.isEdge c = true ↔
    (65 ≤ c.toNat ∧ c.toNat ≤ 90 ∨ 97 ≤ c.toNat ∧ c.toNat ≤ 122) ∨
      (48 ≤ c.toNat ∧ c.toNat ≤ 57) := by
  show ((c.isUpper || c.isLower) || c.isDigit) = true ↔ _
  rw [Bool.or_eq_true, Bool.or_eq_true, isUpper_iff, isLower_iff, Char.isDigit_iff_toNat]
  exact Iff.rfl

theorem toNat_lt_of_isPart {style : Style} {c : Char} (h : style.isPart c = true) :
    c.toNat < 128 := by
  unfold isPart at h
  simp only [Bool.or_eq_true, Bool.and_eq_true, decide_eq_true_eq] at h
  rcases h with ((h | rfl) | rfl) | ⟨-, rfl⟩
  · cases style with
    | domain =>
      have hcode := isEdge_domain.1 h
      omega
    | label =>
      have hcode := isEdge_label.1 h
      omega
  · decide
  · decide
  · decide

/-- ASCII text is the text of its octets -/
theorem exists_text {s : String} (h : ∀ c ∈ s.toList, c.toNat < 128) :
    ∃ bs : Bytes, (∀ b ∈ bs, b < 0x80) ∧ text bs = s := by
  have hoctet : ∀ c ∈ s.toList, c.toNat.toUInt8.toNat = c.toNat := by
    intro c hc
    have hlt := h c hc
    rw [Nat.toUInt8_eq, UInt8.toNat_ofNat']
    omega
  refine ⟨Bytes.ascii s.toList, ?_, ?_⟩
  · intro b hb
    obtain ⟨c, hc, rfl⟩ := List.mem_map.1 hb
    rw [UInt8.lt_iff_toNat_lt, hoctet c hc]
    exact h c hc
  · have hback : ∀ c ∈ s.toList,
        ((fun b : UInt8 => Char.ofNat b.toNat) ∘ fun c : Char => c.toNat.toUInt8) c = c := by
      intro c hc
      show Char.ofNat c.toNat.toUInt8.toNat = c
      rw [hoctet c hc, Char.ofNat_toNat]
    unfold text Bytes.ascii
    rw [List.map_map, List.map_congr_left hback, List.map_id', String.ofList_toList]

/-- the converse of `Fits.isName` -/
theorem fits_of_isName_text {style : Style} {bs : Bytes} (hascii : ∀ b ∈ bs, b < 0x80)
    (h : style.IsName (text bs)) : style.Fits bs := by
  have hchars : (text bs).toList = bs.map fun b => Char.ofNat b.toNat := String.toList_ofList
  -- the first and the last octet are told by the first and the last character
  have hedge : ∀ o : Option UInt8, (∀ b ∈ o, b ∈ bs) →
      (∃ c ∈ o.map fun b => Char.ofNat b.toNat, style.isEdge c = true) →
      ∃ b ∈ o, style.isAlphanumeric b = true := by
    rintro o ho ⟨c, hc, hcedge⟩
    obtain ⟨b, hb, rfl⟩ := Option.map_eq_some_iff.1 hc
    rw [isEdge_charOf style (hascii b (ho b hb))] at hcedge
    exact ⟨b, hb, hcedge⟩
  have hfirst := h.first
  have hlast := h.last
  rw [hchars, List.head?_map] at hfirst
  rw [hchars, List.getLast?_map] at hlast
  refine ⟨⟨?_, hedge _ (fun b => List.mem_of_mem_head?) hfirst, ?_⟩, ?_,
    hedge _ (fun b => List.mem_of_mem_getLast?) hlast⟩
  · intro b hb
    have hpart := h.parts (Char.ofNat b.toNat) (by rw [hchars]; exact List.mem_map_of_mem hb)
    rwa [isPart_charOf style (hascii b hb)] at hpart
  · intro hs
    refine List.isChain_iff_forall_rel_of_append_cons_cons.2 ?_
    rintro a b front rest rfl ⟨rfl, rfl⟩
    refine h.dots hs ⟨front.map fun b => Char.ofNat b.toNat,
      rest.map fun b => Char.ofNat b.toNat, ?_⟩
    rw [hchars, List.map_append, List.append_assoc]
    rfl
  · have hlen := h.short
    rwa [← Utf8.length_encode, text, Utf8.encode_ofList_charOf hascii] at hlen

theorem IsName.toNat_lt {style : Style} {s : String} (h : style.IsName s) :
    ∀ c ∈ s.toList, c.toNat < 128 := fun c hc => toNat_lt_of_isPart (h.parts c hc)

/-- a name has octets that fit, and is their text -/
theorem IsName.fits {style : Style} {s : String} (h : style.IsName s) :
    style.Fits (Utf8.encode s) ∧ text (Utf8.encode s) = s := by
  obtain ⟨bs, hascii, rfl⟩ := exists_text h.toNat_lt
  have hbs : Utf8.encode (text bs) = bs := Utf8.encode_ofList_charOf hascii
  rw [hbs]
  exact ⟨fits_of_isName_text hascii h, rfl⟩

/-- the domain style has no capitals -/
theorem IsName.isUpper_eq_false {s : String} (h : Style.domain.IsName s) :
    ∀ c ∈ s.toList, c.isUpper = false := by
  intro c hc
  have hpart := h.parts c hc
  unfold isPart at hpart
  simp only [Bool.or_eq_true, Bool.and_eq_true, decide_eq_true_eq] at hpart
  rcases hpart with ((hedge | rfl) | rfl) | ⟨hs, -⟩
  · have hcode := isEdge_domain.1 hedge
    rw [← Bool.not_eq_true, isUpper_iff]
    omega
  · decide
  · decide
  · cases hs

/-! ## lower case forms -/

/-- what a lower case form of texts has to be for names to be kept -/
structure IsLowerCasing (lower : String → String) : Prop where
  eq_empty : ∀ s, lower s = "" → s = ""
  keeps : ∀ s, (∀ c ∈ s.toList, c.toNat < 128 ∧ c.isUpper = false) → lower s = s

/-- the octets that a text brings to its identifier, where `lower` gives the lower case form -/
def sourceBy (lower : String → String) : Style → String → Bytes
  | .domain, s => Utf8.encode (lower s)
  | .label, s => Utf8.encode s

/-- the identifier of a text, where `lower` gives the lower case form -/
def canonicalBy (lower : String → String) (style : Style) (s : String) : String :=
  (Utf8.decode? (style.spell (style.sourceBy lower s))).getD ""

/-- the lower case form that `Style.source` goes by -/
def lowered (s : String) : String := String.ofList (lowerCase s.toList)

theorem lowerForms_of_lower {c : Char} (h : c.toNat < 128) (hc : c.isUpper = false) :
    Char.lowerForms c = [c] := by
  have hdotted : c ≠ '\u0130' := by
    rintro rfl
    exact absurd h (by decide)
  have hkelvin : c ≠ '\u212a' := by
    rintro rfl
    exact absurd h (by decide)
  have hlower : c.toLower = c := by
    have hrange : ¬ (c.val ≥ 'A'.val ∧ c.val ≤ 'Z'.val) := of_decide_eq_false hc
    exact dif_neg hrange
  unfold Char.lowerForms
  rw [if_neg hdotted, if_neg hkelvin, hlower]

theorem isLowerCasing_lowered : IsLowerCasing lowered where
  eq_empty s h := by
    rw [lowered, String.ofList_eq_empty_iff, lowerCase_eq_nil] at h
    exact String.toList_eq_nil_iff.1 h
  keeps s h := by
    have hcs : ∀ cs : List Char, (∀ c ∈ cs, c.toNat < 128 ∧ c.isUpper = false) →
        lowerCase cs = cs := by
      intro cs hcs
      induction cs with
      | nil => rfl
      | cons c cs ih =>
        obtain ⟨hc, hrest⟩ := List.forall_mem_cons.1 hcs
        rw [lowerCase_cons, lowerForms_of_lower hc.1 hc.2, ih hrest]
        rfl
    rw [lowered, hcs _ h, String.ofList_toList]

theorem canonicalBy_lowered (style : Style) : style.canonicalBy lowered = style.canonical := by
  cases style <;> rfl

/-! ## names are kept -/

section
variable {lower : String → String}

theorem canonicalBy_eq (lower : String → String) (style : Style) (s : String) :
    style.canonicalBy lower s = text (style.spell (style.sourceBy lower s)) := by
  unfold canonicalBy
  rw [decode?_spell, Option.getD_some]

/-- a name brings its own octets -/
theorem sourceBy_of_isName (hl : IsLowerCasing lower) {style : Style} {s : String}
    (h : style.IsName s) : style.sourceBy lower s = Utf8.encode s := by
  cases style with
  | label => rfl
  | domain =>
    have hs : lower s = s :=
      hl.keeps s fun c hc => ⟨h.toNat_lt c hc, h.isUpper_eq_false c hc⟩
    show Utf8.encode (lower s) = _
    rw [hs]

theorem sourceBy_ne_nil (hl : IsLowerCasing lower) {style : Style} {s : String} (h : s ≠ "") :
    style.sourceBy lower s ≠ [] := by
  intro hnil
  cases style with
  | label => exact h (Utf8.encode_eq_nil.1 hnil)
  | domain => exact h (hl.eq_empty s (Utf8.encode_eq_nil.1 hnil))

theorem canonicalBy_empty (hl : IsLowerCasing lower) (style : Style) :
    style.canonicalBy lower "" = "" := by
  have hs : style.sourceBy lower "" = [] := by
    cases style with
    | label => rfl
    | domain =>
      have he : lower "" = "" := hl.keeps "" fun c hc => (nomatch hc)
      show Utf8.encode (lower "") = []
      rw [he]
      rfl
  rw [canonicalBy_eq, hs, spell_nil]
  rfl

theorem IsName.canonicalBy_eq (hl : IsLowerCasing lower) {style : Style} {s : String}
    (h : style.IsName s) : style.canonicalBy lower s = s := by
  obtain ⟨hfits, htext⟩ := h.fits
  rw [Style.canonicalBy_eq, sourceBy_of_isName hl h, hfits.spell_eq, htext]

theorem isName_canonicalBy (hl : IsLowerCasing lower) (style : Style) {s : String} (h : s ≠ "") :
    style.IsName (style.canonicalBy lower s) := by
  have hfits : style.Fits (style.spell (style.sourceBy lower s)) :=
    fits_spell (sourceBy_ne_nil hl h)
  rw [Style.canonicalBy_eq]
  exact hfits.isName

/-- the map takes every text to a name of the style or to the empty text, and keeps these -/
structure FixesNames (style : Style) (f : String → String) : Prop where
  eq_self_iff : ∀ s, f s = s ↔ s = "" ∨ style.IsName s
  idempotent : ∀ s, f (f s) = f s
  image : ∀ t, (∃ s, f s = t) ↔ t = "" ∨ style.IsName t

theorem fixesNames_canonicalBy (hl : IsLowerCasing lower) (style : Style) :
    style.FixesNames (style.canonicalBy lower) := by
  have hkeep : ∀ s, s = "" ∨ style.IsName s → style.canonicalBy lower s = s := by
    rintro s (rfl | hs)
    · exact canonicalBy_empty hl style
    · exact hs.canonicalBy_eq hl
  have hname : ∀ s, style.canonicalBy lower s = "" ∨ style.IsName (style.canonicalBy lower s) := by
    intro s
    by_cases hs : s = ""
    · rw [hs]
      exact .inl (canonicalBy_empty hl style)
    · exact .inr (isName_canonicalBy hl style hs)
  refine ⟨fun s => ⟨fun hs => ?_, hkeep s⟩, fun s => hkeep _ (hname s), fun t => ⟨?_, ?_⟩⟩
  · rw [← hs]
    exact hname s
  · rintro ⟨s, rfl⟩
    exact hname s
  · intro ht
    exact ⟨t, hkeep t ht⟩

/-- **Exactly the names are kept.**  With any lower case form, and so with the one in use, a text is
its own identifier if and only if it is empty or a name of the style; a second pass changes nothing;
and the identifiers are the names and the empty text. -/
theorem fixes_exactly_names (hl : IsLowerCasing lower) :
    (∀ style : Style, style.FixesNames (style.canonicalBy lower)) ∧
    Style.domain.FixesNames domainName ∧ Style.label.FixesNames labelName := by
  have hown : ∀ style : Style, style.FixesNames style.canonical := by
    intro style
    rw [← canonicalBy_lowered]
    exact fixesNames_canonicalBy isLowerCasing_lowered style
  exact ⟨fixesNames_canonicalBy hl, hown .domain, hown .label⟩

end

/-- a name at the length limit is kept, and a second pass changes no identifier of it -/
theorem fixes_exactly_names_at_limit :
    IsLowerCasing lowered ∧
    Style.label.canonicalBy lowered (String.ofList (List.replicate 63 'Z'))
      = String.ofList (List.replicate 63 'Z') ∧
    domainName (domainName "Kabanero.IO/") = domainName "Kabanero.IO/" := by
  obtain ⟨hstyles, hdomain, -⟩ := fixes_exactly_names isLowerCasing_lowered
  have hparts : ∀ c ∈ (String.ofList (List.replicate 63 'Z')).toList,
      Style.label.isPart c = true := by
    intro c hc
    rw [String.toList_ofList] at hc
    rw [List.eq_of_mem_replicate hc]
    rfl
  refine ⟨isLowerCasing_lowered, ((hstyles .label).eq_self_iff _).2 (.inr ?_),
    hdomain.idempotent _⟩
  exact ⟨by decide, hparts, ⟨'Z', by decide, by decide⟩, ⟨'Z', by decide, by decide⟩,
    fun hs => by cases hs⟩

end Style

end ForgeRelay.Identifier
