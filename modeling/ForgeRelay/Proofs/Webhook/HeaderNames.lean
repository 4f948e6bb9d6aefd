import ForgeRelay.Proofs.Text.Letters
import ForgeRelay.Webhook.Envelope
import Mathlib.Data.List.Forall2

/-!
# Spellings of header names

A header name is spelled in two ways: in lower case by whoever takes a request in, and by
`canonicalName` in an envelope.  Where a hyphen stands decides which letters `canonicalName` raises,
and the case of a letter never makes it one.  So neither spelling loses more than the case of
letters, and two names have one spelling of either kind exactly if they differ in case at most.

* `SameName`                    names that differ in the case of ASCII letters at most;
* `sameName_iff`                they are those with one lower case;
* `Spelled`                     capitals stand where they are due and nowhere else;
* `canonicalFrom_eq_iff`        the spelling of a text is the same text, spelled so;
* `canonicalName_eq_iff`        when names are spelled alike;
* `canonicalName_normal_form`   the spelling as a normal form of names.
-/

namespace ForgeRelay

/-- a header name in lower case; only ASCII letters change -/
def Http.lowerName (name : String) : String := String.ofList (name.toList.map Char.toLower)

open Http

/-! ## letters -/

/-- the second character is the small letter of the first -/
def Lowers (c d : Char) : Prop := c.isUpper = true ∧ d.toNat = c.toNat + 32

/-- the characters are the same, or the same ASCII letter in either case -/
def SameLetter (c d : Char) : Prop := c = d ∨ Lowers c d ∨ Lowers d c

section
variable {c d : Char}

theorem sameLetter_iff : SameLetter c d ↔ c.toNat = d.toNat ∨
    ((65 ≤ c.toNat ∧ c.toNat ≤ 90) ∧ d.toNat = c.toNat + 32) ∨
    ((65 ≤ d.toNat ∧ d.toNat ≤ 90) ∧ c.toNat = d.toNat + 32) := by
  unfold SameLetter Lowers
  rw [isUpper_iff, isUpper_iff, Char.toNat_inj]

theorem sameLetter_iff_toLower : SameLetter c d ↔ c.toLower = d.toLower := by
  rw [← Char.toNat_inj, toNat_toLower, toNat_toLower, sameLetter_iff]
  split <;> split <;> omega

/-- a hyphen has no case -/
theorem SameLetter.eq_minus_iff (h : SameLetter c d) : c = '-' ↔ d = '-' := by
  have hminus : '-'.toNat = 45 := rfl
  rw [sameLetter_iff] at h
  rw [← Char.toNat_inj, ← Char.toNat_inj, hminus]
  omega

/-- the capital of a letter is the same letter and not small -/
theorem toUpper_eq_iff : c.toUpper = d ↔ SameLetter c d ∧ d.isLower = false := by
  rw [← Char.toNat_inj, toNat_toUpper, sameLetter_iff, ← Bool.not_eq_true, isLower_iff]
  split <;> omega

theorem toLower_eq_iff : c.toLower = d ↔ SameLetter c d ∧ d.isUpper = false := by
  rw [← Char.toNat_inj, toNat_toLower, sameLetter_iff, ← Bool.not_eq_true, isUpper_iff]
  split <;> omega

end

/-! ## names -/

/-- the names are the same but for the case of ASCII letters -/
def SameName (a b : String) : Prop := List.Forall₂ SameLetter a.toList b.toList

theorem SameName.length_eq {a b : String} (h : SameName a b) : a.length = b.length := by
  rw [← String.length_toList, ← String.length_toList]
  exact List.Forall₂.length_eq h

theorem sameName_iff {a b : String} : SameName a b ↔ lowerName a = lowerName b := by
  unfold SameName lowerName
  rw [String.ofList_inj, ← List.forall₂_eq_eq_eq, List.forall₂_map_left_iff,
    List.forall₂_map_right_iff]
  exact ⟨List.Forall₂.imp fun _ _ => sameLetter_iff_toLower.1,
    List.Forall₂.imp fun _ _ => sameLetter_iff_toLower.2⟩

theorem lowerName_lowerName (name : String) : lowerName (lowerName name) = lowerName name := by
  have hletter : ∀ c : Char, c.toLower.toLower = c.toLower := fun c =>
    (sameLetter_iff_toLower.1 (toLower_eq_iff.1 rfl).1).symm
  unfold lowerName
  rw [String.toList_ofList, List.map_map]
  exact congrArg String.ofList (List.map_congr_left fun c _ => hletter c)

/-! ## capitals where they are due -/

/-- whether a capital is due after some characters: after none if `upper` says so -/
def isRaised (upper : Bool) (before : List Char) : Bool :=
  before.getLast?.elim upper fun d => decide (d = '-')

/-- no small letter stands where a capital is due, and no capital elsewhere -/
def Spelled (upper : Bool) (cs : List Char) : Prop :=
  ∀ before c after, cs = before ++ c :: after →
    if isRaised upper before then c.isLower = false else c.isUpper = false

theorem isRaised_cons (upper : Bool) (c : Char) (before : List Char) :
    isRaised upper (c :: before) = isRaised (c = '-') before := by
  unfold isRaised
  rw [List.getLast?_cons]
  cases before.getLast? <;> rfl

theorem spelled_nil (upper : Bool) : Spelled upper [] := by
  intro before c after h
  simp at h

theorem spelled_cons {upper : Bool} {c : Char} {cs : List Char} :
    Spelled upper (c :: cs) ↔
      (if upper then c.isLower = false else c.isUpper = false) ∧ Spelled (c = '-') cs := by
  constructor
  · intro h
    refine ⟨h [] c cs rfl, fun before d after hcs => ?_⟩
    rw [← isRaised_cons upper]
    exact h (c :: before) d after (by rw [hcs, List.cons_append])
  · rintro ⟨hc, hcs⟩ before d after heq
    cases before with
    | nil =>
      cases heq
      exact hc
    | cons b before =>
      cases heq
      rw [isRaised_cons]
      exact hcs before d after rfl

/-! ## the spelling -/

/-- a letter is spelled in the one way in which it may stand -/
theorem spell_eq_iff {upper : Bool} {c d : Char} :
    (if upper then c.toUpper else c.toLower) = d ↔
      SameLetter c d ∧ if upper then d.isLower = false else d.isUpper = false := by
  cases upper with
  | false => exact toLower_eq_iff
  | true => exact toUpper_eq_iff

theorem canonicalFrom_eq_iff {upper : Bool} {cs ds : List Char} :
    canonicalFrom upper cs = ds ↔ List.Forall₂ SameLetter cs ds ∧ Spelled upper ds := by
  -- what is due next hangs on the character as it was, and on no more than whether it is a hyphen
  induction cs generalizing upper ds with
  | nil =>
    rw [canonicalFrom, List.forall₂_nil_left_iff, eq_comm]
    exact ⟨fun h => ⟨h, h ▸ spelled_nil upper⟩, And.left⟩
  | cons c cs ih =>
    cases ds with
    | nil =>
      rw [canonicalFrom, List.forall₂_nil_right_iff]
      exact ⟨nofun, nofun⟩
    | cons d ds =>
      rw [canonicalFrom, List.cons.injEq, spell_eq_iff, ih, List.forall₂_cons, spelled_cons]
      constructor
      · rintro ⟨⟨hletter, hcase⟩, hrest, hspelled⟩
        rw [decide_eq_decide.2 hletter.eq_minus_iff] at hspelled
        exact ⟨⟨hletter, hrest⟩, hcase, hspelled⟩
      · rintro ⟨⟨hletter, hrest⟩, hcase, hspelled⟩
        rw [← decide_eq_decide.2 hletter.eq_minus_iff] at hspelled
        exact ⟨⟨hletter, hcase⟩, hrest, hspelled⟩

theorem canonicalName_eq_iff_spelled {a b : String} :
    canonicalName a = b ↔ SameName a b ∧ Spelled true b.toList := by
  have hlist : canonicalName a = b ↔ canonicalFrom true a.toList = b.toList := by
    unfold canonicalName
    rw [← String.toList_inj, String.toList_ofList]
  rw [hlist, canonicalFrom_eq_iff]
  exact Iff.rfl

theorem lowerName_canonicalName (name : String) :
    lowerName (canonicalName name) = lowerName name :=
  (sameName_iff.1 (canonicalName_eq_iff_spelled.1 rfl).1).symm

/-- names are spelled alike exactly if they differ in the case of letters at most -/
theorem canonicalName_eq_iff {a b : String} :
    canonicalName a = canonicalName b ↔ lowerName a = lowerName b := by
  constructor
  · intro h
    rw [← lowerName_canonicalName a, h, lowerName_canonicalName]
  · intro h
    rw [← lowerName_canonicalName b] at h
    exact canonicalName_eq_iff_spelled.2
      ⟨sameName_iff.2 h, (canonicalName_eq_iff_spelled.1 rfl).2⟩

theorem canonicalName_lowerName (name : String) :
    canonicalName (lowerName name) = canonicalName name :=
  canonicalName_eq_iff.2 (lowerName_lowerName name)

/-- **The spelling of a header name is a normal form.**  Names have the same spelling exactly if
they are the same but for the case of ASCII letters, whatever other characters they are made of.  A
spelling is its own, has as many characters as the name and is the same name; and it is the only
form of the name that has its capitals where they are due and nowhere else. -/
theorem canonicalName_normal_form :
    (∀ a b, canonicalName a = canonicalName b ↔ SameName a b) ∧
    (∀ a, canonicalName (canonicalName a) = canonicalName a) ∧
    (∀ a, (canonicalName a).length = a.length) ∧
    (∀ a, SameName (canonicalName a) a) ∧
    ∀ a b, canonicalName a = b ↔ SameName a b ∧ Spelled true b.toList := by
  have hsame : ∀ a, SameName (canonicalName a) a :=
    fun a => sameName_iff.2 (lowerName_canonicalName a)
  refine ⟨fun a b => ?_, fun a => ?_, fun a => (hsame a).length_eq, hsame,
    fun a b => canonicalName_eq_iff_spelled⟩
  · rw [canonicalName_eq_iff, sameName_iff]
  · rw [canonicalName_eq_iff, lowerName_canonicalName]

/-- a letter that is not of ASCII keeps its case, and no capital is due after it -/
example : canonicalName "x--éA-1b-gITHUB" = "X--éa-1b-Github" := by decide

end ForgeRelay
