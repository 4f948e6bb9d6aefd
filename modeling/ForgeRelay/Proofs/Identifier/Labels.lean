import ForgeRelay.Proofs.Identifier.FixedNames
import Mathlib.Data.List.TakeWhile

/-!
# Labels with a domain

The halves of a text are what comes before its first slash and what comes after it; a text without
a slash has nothing before it.  A label is made of the domain name of the first half and the label
name of the second, and of one of them if the other half is empty.

A second pass splits the label again.  Names have no slash, so both halves of a label with a slash
are found again as they are, and all of another label is taken for a label name.  That is what it
is, unless it is a domain name of more octets than a label name may have.

* `halves_iff`              the halves of a text are those of `splitDomain`;
* `isName_label_iff`        a domain name is a label name exactly if it is short enough;
* `Naming.namesLabels`      what holds of labels, for any maps that fix the names of the styles;
* `label_names_halves`      what holds of labels.
-/

namespace ForgeRelay.Identifier

open Style

/-! ## halves -/

/-- `p` comes before the first slash of `x` and `l` after it; without a slash there is nothing
before it -/
def Halves (x p l : String) : Prop :=
  '/' ∉ x.toList ∧ p = "" ∧ l = x ∨ '/' ∉ p.toList ∧ x = p ++ "/" ++ l

theorem splitDomain_of_not_mem {x : String} (h : '/' ∉ x.toList) : splitDomain x = ("", x) := by
  have hdrop : x.toList.dropWhile (· ≠ '/') = [] := by
    rw [List.dropWhile_eq_nil_iff]
    intro c hc
    exact decide_eq_true fun hslash : c = '/' => h (hslash ▸ hc)
  unfold splitDomain
  simp only [hdrop]

theorem toList_slashed (p l : String) : (p ++ "/" ++ l).toList = p.toList ++ '/' :: l.toList := by
  rw [String.toList_append, String.toList_append, List.append_assoc]
  rfl

theorem splitDomain_append {p l : String} (h : '/' ∉ p.toList) :
    splitDomain (p ++ "/" ++ l) = (p, l) := by
  have hbefore : ∀ c ∈ p.toList, decide (c ≠ '/') = true := by
    intro c hc
    exact decide_eq_true fun hslash : c = '/' => h (hslash ▸ hc)
  have hdrop : (p ++ "/" ++ l).toList.dropWhile (· ≠ '/') = '/' :: l.toList := by
    rw [toList_slashed, List.dropWhile_append_of_pos hbefore]
    rfl
  have htake : (p ++ "/" ++ l).toList.takeWhile (· ≠ '/') = p.toList := by
    rw [toList_slashed, List.takeWhile_append_of_pos hbefore,
      List.takeWhile_cons_of_neg (by decide), List.append_nil]
  unfold splitDomain
  simp only [hdrop, htake, String.ofList_toList]

theorem halves_splitDomain (x : String) : Halves x (splitDomain x).1 (splitDomain x).2 := by
  by_cases h : '/' ∈ x.toList
  · obtain ⟨before, after, hsplit, hfirst⟩ := List.eq_append_cons_of_mem h
    have hx : x = String.ofList before ++ "/" ++ String.ofList after := by
      rw [← String.toList_inj, hsplit, toList_slashed, String.toList_ofList, String.toList_ofList]
    have hbefore : '/' ∉ (String.ofList before).toList := by
      rw [String.toList_ofList]
      exact hfirst
    rw [hx, splitDomain_append hbefore]
    exact .inr ⟨hbefore, rfl⟩
  · rw [splitDomain_of_not_mem h]
    exact .inl ⟨h, rfl, rfl⟩

theorem halves_iff {x p l : String} : Halves x p l ↔ splitDomain x = (p, l) := by
  constructor
  · rintro (⟨hx, rfl, rfl⟩ | ⟨hp, rfl⟩)
    · exact splitDomain_of_not_mem hx
    · exact splitDomain_append hp
  · intro h
    have hx := halves_splitDomain x
    rw [h] at hx
    exact hx

/-! ## names in labels -/

theorem Style.IsName.ne_empty {style : Style} {s : String} (h : style.IsName s) : s ≠ "" := by
  rintro rfl
  obtain ⟨c, hc, -⟩ := h.first
  cases hc

theorem Style.IsName.slash_not_mem {style : Style} {s : String} (h : style.IsName s) :
    '/' ∉ s.toList := by
  intro hmem
  have hpart := h.parts '/' hmem
  cases style <;> exact absurd hpart (by decide)

theorem isEdge_label_of_domain {c : Char} (h : Style.domain.isEdge c = true) :
    Style.label.isEdge c = true := by
  rw [isEdge_domain] at h
  rw [isEdge_label]
  omega

theorem isPart_label_of_domain {c : Char} (h : Style.domain.isPart c = true) :
    Style.label.isPart c = true := by
  unfold isPart at h ⊢
  simp only [Bool.or_eq_true, Bool.and_eq_true, decide_eq_true_eq] at h ⊢
  rcases h with ((hedge | hdot) | hminus) | ⟨hstyle, -⟩
  · exact .inl (.inl (.inl (isEdge_label_of_domain hedge)))
  · exact .inl (.inl (.inr hdot))
  · exact .inl (.inr hminus)
  · cases hstyle

/-- the alphabet of domain names is part of that of label names, so only the length counts -/
theorem isName_label_iff {s : String} (h : Style.domain.IsName s) :
    Style.label.IsName s ↔ s.utf8ByteSize ≤ 63 := by
  constructor
  · intro hname
    exact hname.short
  · intro hshort
    obtain ⟨first, hfirst, hfirstEdge⟩ := h.first
    obtain ⟨last, hlast, hlastEdge⟩ := h.last
    exact ⟨hshort, fun c hc => isPart_label_of_domain (h.parts c hc),
      ⟨first, hfirst, isEdge_label_of_domain hfirstEdge⟩,
      ⟨last, hlast, isEdge_label_of_domain hlastEdge⟩, fun hstyle => by cases hstyle⟩

theorem isName_noLabel : Style.label.IsName noLabel := by
  have hparts : noLabel.toList.all Style.label.isPart = true := by decide
  exact ⟨by decide, fun c hc => List.all_eq_true.1 hparts c hc, ⟨'n', rfl, by decide⟩,
    ⟨'l', rfl, by decide⟩, fun hstyle => by cases hstyle⟩

/-! ## labels -/

/-- the label of a text, where `domain` and `name` give the names of its halves -/
def labelOf (domain name : String → String) (x : String) : String :=
  let d := domain (splitDomain x).1
  let n := name (splitDomain x).2
  if d.isEmpty && n.isEmpty then noLabel
  else if d.isEmpty then n
  else if n.isEmpty then d
  else d ++ "/" ++ n

theorem labelOf_domainName_labelName : labelOf domainName labelName = label := rfl

/-- maps that fix the names of the two styles and give the empty text for the empty text only -/
structure Naming (domain name : String → String) : Prop where
  fixes_domain : Style.domain.FixesNames domain
  domain_eq_empty : ∀ s, domain s = "" ↔ s = ""
  fixes_name : Style.label.FixesNames name
  name_eq_empty : ∀ s, name s = "" ↔ s = ""

/-- what holds of the labels that `f` gives to texts, where `domain` and `name` give the names of
their halves -/
structure NamesLabels (domain name f : String → String) : Prop where
  both : ∀ x p l, Halves x p l → p ≠ "" → l ≠ "" → f x = domain p ++ "/" ++ name l
  nameOnly : ∀ x p l, Halves x p l → p = "" → l ≠ "" → f x = name l
  domainOnly : ∀ x p l, Halves x p l → p ≠ "" → l = "" → f x = domain p
  neither : ∀ x p l, Halves x p l → p = "" → l = "" → f x = "nolabel"
  ne_empty : ∀ x, f x ≠ ""
  slash_iff : ∀ x p l, Halves x p l → ('/' ∈ (f x).toList ↔ p ≠ "" ∧ l ≠ "")
  names : ∀ x p l, Halves x p l → p ≠ "" → l ≠ "" →
    Halves (f x) (domain p) (name l) ∧
      Style.domain.IsName (domain p) ∧ Style.label.IsName (name l)
  idempotent_iff : ∀ x p l, Halves x p l →
    (f (f x) = f x ↔ ¬ (l = "" ∧ 63 < (domain p).utf8ByteSize))

section
variable {domain name : String → String} {x p l : String}

theorem Naming.isName_domain (h : Naming domain name) (hp : p ≠ "") :
    Style.domain.IsName (domain p) :=
  ((h.fixes_domain.image _).1 ⟨p, rfl⟩).resolve_left fun he => hp ((h.domain_eq_empty p).1 he)

theorem Naming.isName_name (h : Naming domain name) (hl : l ≠ "") : Style.label.IsName (name l) :=
  ((h.fixes_name.image _).1 ⟨l, rfl⟩).resolve_left fun he => hl ((h.name_eq_empty l).1 he)

/-- the label goes by which of the halves are empty -/
theorem Naming.labelOf_eq (h : Naming domain name) (hx : Halves x p l) :
    labelOf domain name x =
      if p = "" then if l = "" then noLabel else name l
      else if l = "" then domain p else domain p ++ "/" ++ name l := by
  unfold labelOf
  rw [halves_iff.1 hx]
  simp only [Bool.and_eq_true, String.isEmpty_iff, h.domain_eq_empty p, h.name_eq_empty l]
  by_cases hp : p = ""
  · by_cases hl : l = "" <;> simp [hp, hl]
  · by_cases hl : l = "" <;> simp [hp, hl]

/-- a name is all label name -/
theorem Naming.labelOf_of_isName (h : Naming domain name) {style : Style} {s : String}
    (hs : style.IsName s) : labelOf domain name s = name s := by
  rw [h.labelOf_eq (.inl ⟨hs.slash_not_mem, rfl, rfl⟩), if_pos rfl, if_neg hs.ne_empty]

theorem slash_mem_slashed (d n : String) : '/' ∈ (d ++ "/" ++ n).toList := by
  rw [toList_slashed]
  exact List.mem_append_right _ (List.mem_cons_self ..)

theorem Naming.slash_mem_labelOf_iff (h : Naming domain name) (hx : Halves x p l) :
    '/' ∈ (labelOf domain name x).toList ↔ p ≠ "" ∧ l ≠ "" := by
  rw [h.labelOf_eq hx]
  by_cases hp : p = ""
  · refine iff_of_false ?_ fun hne => hne.1 hp
    rw [if_pos hp]
    by_cases hl : l = ""
    · rw [if_pos hl]
      exact isName_noLabel.slash_not_mem
    · rw [if_neg hl]
      exact (h.isName_name hl).slash_not_mem
  · rw [if_neg hp]
    by_cases hl : l = ""
    · rw [if_pos hl]
      exact iff_of_false (h.isName_domain hp).slash_not_mem fun hne => hne.2 hl
    · rw [if_neg hl]
      exact iff_of_true (slash_mem_slashed _ _) ⟨hp, hl⟩

theorem Naming.labelOf_ne_empty (h : Naming domain name) (x : String) :
    labelOf domain name x ≠ "" := by
  rw [h.labelOf_eq (halves_splitDomain x)]
  split
  · split
    · exact isName_noLabel.ne_empty
    · rename_i hl
      exact (h.isName_name hl).ne_empty
  · rename_i hp
    split
    · exact (h.isName_domain hp).ne_empty
    · intro hempty
      have hmem := slash_mem_slashed (domain (splitDomain x).1) (name (splitDomain x).2)
      rw [hempty] at hmem
      cases hmem

/-- a second pass makes a label name of a domain name that stands alone, and changes nothing else -/
theorem Naming.labelOf_labelOf_iff (h : Naming domain name) (hx : Halves x p l) :
    labelOf domain name (labelOf domain name x) = labelOf domain name x ↔
      ¬ (l = "" ∧ 63 < (domain p).utf8ByteSize) := by
  rw [h.labelOf_eq hx]
  by_cases hl : l = ""
  · rw [if_pos hl, if_pos hl]
    by_cases hp : p = ""
    · -- the domain name of nothing is empty, and so not too long
      have hsize : (domain p).utf8ByteSize = 0 := by
        rw [(h.domain_eq_empty p).2 hp]
        rfl
      refine iff_of_true ?_ fun hlong => by omega
      rw [if_pos hp, h.labelOf_of_isName isName_noLabel]
      exact (h.fixes_name.eq_self_iff _).2 (.inr isName_noLabel)
    · have hname := h.isName_domain hp
      rw [if_neg hp, h.labelOf_of_isName hname, h.fixes_name.eq_self_iff,
        or_iff_right hname.ne_empty, isName_label_iff hname, not_and, Nat.not_lt]
      exact ⟨fun hshort _ => hshort, fun hshort => hshort hl⟩
  · refine iff_of_true ?_ fun hlong => hl hlong.1
    have hname := h.isName_name hl
    rw [if_neg hl, if_neg hl]
    by_cases hp : p = ""
    · rw [if_pos hp, h.labelOf_of_isName hname]
      exact h.fixes_name.idempotent l
    · -- both halves are found again, and are names already
      have hdomain := h.isName_domain hp
      have hhalves : Halves (domain p ++ "/" ++ name l) (domain p) (name l) :=
        .inr ⟨hdomain.slash_not_mem, rfl⟩
      rw [if_neg hp, h.labelOf_eq hhalves, if_neg hdomain.ne_empty, if_neg hname.ne_empty,
        h.fixes_domain.idempotent, h.fixes_name.idempotent]

theorem Naming.namesLabels (h : Naming domain name) :
    NamesLabels domain name (labelOf domain name) := by
  refine ⟨?_, ?_, ?_, ?_, h.labelOf_ne_empty, fun x p l => h.slash_mem_labelOf_iff, ?_,
    fun x p l => h.labelOf_labelOf_iff⟩
  · intro x p l hx hp hl
    rw [h.labelOf_eq hx, if_neg hp, if_neg hl]
  · intro x p l hx hp hl
    rw [h.labelOf_eq hx, if_pos hp, if_neg hl]
  · intro x p l hx hp hl
    rw [h.labelOf_eq hx, if_neg hp, if_pos hl]
  · intro x p l hx hp hl
    rw [h.labelOf_eq hx, if_pos hp, if_pos hl]
    rfl
  · intro x p l hx hp hl
    have hdomain := h.isName_domain hp
    rw [h.labelOf_eq hx, if_neg hp, if_neg hl]
    exact ⟨.inr ⟨hdomain.slash_not_mem, rfl⟩, hdomain, h.isName_name hl⟩

end

/-! ## the labels in use -/

theorem naming_canonicalBy {lower : String → String} (hl : IsLowerCasing lower) :
    Naming (Style.domain.canonicalBy lower) (Style.label.canonicalBy lower) := by
  have hempty : ∀ (style : Style) (s : String), style.canonicalBy lower s = "" ↔ s = "" := by
    intro style s
    constructor
    · intro hs
      refine Classical.byContradiction fun hne => ?_
      exact (isName_canonicalBy hl style hne).ne_empty hs
    · rintro rfl
      exact canonicalBy_empty hl style
  exact ⟨fixesNames_canonicalBy hl _, hempty _, fixesNames_canonicalBy hl _, hempty _⟩

theorem naming_domainName_labelName : Naming domainName labelName := by
  have h := naming_canonicalBy isLowerCasing_lowered
  rw [canonicalBy_lowered, canonicalBy_lowered] at h
  exact h

/-- **A label names the halves of its text.**  Every text has one pair of halves.  With any lower
case form, and so with the one in use, its label is made of the names of the halves that are not
empty; it is never empty, and has a slash exactly if neither half is empty, with a domain name
before it and a label name after it.  A second pass changes nothing, unless there is nothing after
the slash and the domain name is longer than a label name may be. -/
theorem label_names_halves {lower : String → String} (hl : IsLowerCasing lower) :
    (∀ x, ∃! h : String × String, Halves x h.1 h.2) ∧
    NamesLabels (Style.domain.canonicalBy lower) (Style.label.canonicalBy lower)
      (labelOf (Style.domain.canonicalBy lower) (Style.label.canonicalBy lower)) ∧
    NamesLabels domainName labelName label := by
  refine ⟨fun x => ⟨splitDomain x, halves_splitDomain x, ?_⟩,
    (naming_canonicalBy hl).namesLabels, ?_⟩
  · intro h hx
    exact (halves_iff.1 hx).symm
  · rw [← labelOf_domainName_labelName]
    exact naming_domainName_labelName.namesLabels

/-- the domain name that stands alone is one octet too long for a second pass to keep it -/
theorem label_names_halves_too_long :
    let long := String.ofList (List.replicate 64 'a')
    IsLowerCasing lowered ∧
    label "Kabanero.IO/my label" = "kabanero.io/my.label" ∧
    Halves (long ++ "/") long "" ∧ label (label (long ++ "/")) ≠ label (long ++ "/") := by
  intro long
  obtain ⟨-, -, h⟩ := label_names_halves isLowerCasing_lowered
  have hboth : label "Kabanero.IO/my label" =
      domainName "Kabanero.IO" ++ "/" ++ labelName "my label" :=
    h.both _ _ _ (.inr ⟨by decide, by decide⟩) (by decide) (by decide)
  have hhalves : Halves (long ++ "/") long "" := .inr ⟨by decide, by decide⟩
  refine ⟨isLowerCasing_lowered, hboth.trans (by decide), hhalves, ?_⟩
  intro hsame
  exact (h.idempotent_iff _ _ _ hhalves).1 hsame ⟨rfl, by decide⟩

end ForgeRelay.Identifier
