import ForgeRelay.Credential.Resolver
import ForgeRelay.Proofs.Credential.Decoding
import ForgeRelay.Proofs.Keyed

/-!
# Which secret decides

Without reuse a resolution lists the secrets and takes the first that is for the repository and can
be used.  What "for the repository" and "can be used" mean is said here of the secrets themselves
(`Secret.Matches`, `Secret.Usable`), by their annotations and data, and not of the records made from
them.

* `Secret.patternFor?_eq_some`    the URL that is found is that of the annotation with the least
                                  key, looked for in the first family before the second;
* `SealedCredential.decode_names` decoding gives the credential of this secret or says what is wrong
                                  with this secret;
* `resolve_first_match`           the answer of a resolution.
-/

namespace ForgeRelay

/-! ## what annotations say -/

theorem SealedCredential.beginsWith_iff (start s : String) :
    beginsWith start s = true ↔ ∃ rest, s = start ++ rest := by
  unfold beginsWith
  rw [List.isPrefixOf_iff_prefix]
  constructor
  · rintro ⟨rest, h⟩
    refine ⟨String.ofList rest, ?_⟩
    apply String.toList_inj.1
    rw [String.toList_append, String.toList_ofList, h]
  · rintro ⟨rest, rfl⟩
    exact ⟨rest.toList, String.toList_append.symm⟩

namespace Secret

/-- an annotation of a family, and a URL in it that the URL of the repository begins with -/
def Annotates (s : Secret) (mark url key pattern : String) : Prop :=
  s.annotations.get? key = some pattern ∧ (∃ rest, key = mark ++ rest) ∧
    ∃ rest, url = pattern ++ rest

/-- the URL is that of the least key among the annotations of a family that are for a repository -/
def LeastAnnotation (s : Secret) (mark url pattern : String) : Prop :=
  ∃ key, s.Annotates mark url key pattern ∧
    ∀ other otherPattern, s.Annotates mark url other otherPattern → key ≤ other

/-- some annotation of either family is for the repository -/
def Matches (s : Secret) (url : String) : Prop :=
  ∃ key pattern, s.Annotates SealedCredential.primaryMark url key pattern ∨
    s.Annotates SealedCredential.fallbackMark url key pattern

/-- the secret has a name, a user name and a token -/
def Usable (s : Secret) : Prop :=
  s.name ≠ "" ∧ (∃ username, s.data.get? "username" = some username) ∧
    ∃ token, s.data.get? "password" = some token

theorem annotates_iff_mem (s : Secret) (mark url key pattern : String) :
    s.Annotates mark url key pattern ↔ (key, pattern) ∈ s.annotations.entries ∧
      (SealedCredential.beginsWith mark key && SealedCredential.beginsWith pattern url) = true := by
  rw [Bool.and_eq_true, SealedCredential.beginsWith_iff, SealedCredential.beginsWith_iff,
    StringMap.mem_entries_iff]
  rfl

/-- the search in one family, as a search among all annotations -/
theorem find?_patterns (s : Secret) (mark url : String) :
    (SealedCredential.patterns mark s.annotations).find? (SealedCredential.beginsWith · url) =
      (s.annotations.entries.find? fun e =>
        SealedCredential.beginsWith mark e.1 && SealedCredential.beginsWith e.2 url).map Prod.snd := by
  unfold SealedCredential.patterns
  rw [List.find?_map, List.find?_filter]
  congr 2
  funext e
  rw [Bool.decide_and, Bool.decide_eq_true, Bool.decide_eq_true, Function.comp_apply]

/-- the search in one family finds the least key -/
theorem find?_patterns_eq_some (s : Secret) (mark url pattern : String) :
    (SealedCredential.patterns mark s.annotations).find?
        (SealedCredential.beginsWith · url) = some pattern ↔
      s.LeastAnnotation mark url pattern := by
  rw [find?_patterns, Option.map_eq_some_iff]
  constructor
  · rintro ⟨⟨key, found⟩, hfound, rfl⟩
    rw [Keyed.find?_eq_some_iff_least s.annotations.sorted] at hfound
    obtain ⟨hmem, hleast⟩ := hfound
    refine ⟨key, (s.annotates_iff_mem ..).2 hmem, fun other otherPattern h => ?_⟩
    obtain ⟨hother, hp⟩ := (s.annotates_iff_mem ..).1 h
    exact hleast _ hother hp
  · rintro ⟨key, h, hleast⟩
    refine ⟨(key, pattern), ?_, rfl⟩
    rw [Keyed.find?_eq_some_iff_least s.annotations.sorted]
    refine ⟨(s.annotates_iff_mem ..).1 h, fun f hf hp => ?_⟩
    exact hleast f.1 f.2 ((s.annotates_iff_mem ..).2 ⟨hf, hp⟩)

theorem find?_patterns_eq_none (s : Secret) (mark url : String) :
    (SealedCredential.patterns mark s.annotations).find?
        (SealedCredential.beginsWith · url) = none ↔
      ∀ key pattern, ¬ s.Annotates mark url key pattern := by
  rw [find?_patterns, Option.map_eq_none_iff, List.find?_eq_none]
  constructor
  · intro h key pattern ha
    obtain ⟨hmem, hp⟩ := (s.annotates_iff_mem ..).1 ha
    exact h _ hmem hp
  · intro h e he hp
    exact h e.1 e.2 ((s.annotates_iff_mem ..).2 ⟨he, hp⟩)

/-- the first family is searched before the second -/
theorem patternFor?_eq_some (s : Secret) (url pattern : String) :
    (SealedCredential.ofSecret s).patternFor? url = some pattern ↔
      s.LeastAnnotation SealedCredential.primaryMark url pattern ∨
        (∀ key other, ¬ s.Annotates SealedCredential.primaryMark url key other) ∧
          s.LeastAnnotation SealedCredential.fallbackMark url pattern := by
  rw [← find?_patterns_eq_some, ← find?_patterns_eq_some, ← find?_patterns_eq_none]
  exact Option.or_eq_some_iff

theorem patternFor?_eq_none (s : Secret) (url : String) :
    (SealedCredential.ofSecret s).patternFor? url = none ↔ ¬ s.Matches url := by
  have hnone : (SealedCredential.ofSecret s).patternFor? url = none ↔
      (∀ key other, ¬ s.Annotates SealedCredential.primaryMark url key other) ∧
        ∀ key other, ¬ s.Annotates SealedCredential.fallbackMark url key other := by
    rw [← find?_patterns_eq_none, ← find?_patterns_eq_none]
    exact Option.or_eq_none_iff
  rw [hnone]
  constructor
  · rintro ⟨hp, hf⟩ ⟨key, pattern, h | h⟩
    · exact hp key pattern h
    · exact hf key pattern h
  · intro h
    exact ⟨fun key pattern ha => h ⟨key, pattern, .inl ha⟩,
      fun key pattern ha => h ⟨key, pattern, .inr ha⟩⟩

theorem isComplete_iff (s : Secret) : (SealedCredential.ofSecret s).isComplete = true ↔ s.Usable := by
  unfold SealedCredential.isComplete Usable
  simp only [Bool.and_eq_true, decide_eq_true_eq, Option.isSome_iff_exists, and_assoc]
  rfl

instance (s : Secret) (url : String) : Decidable (s.Matches url) :=
  decidable_of_iff ((SealedCredential.ofSecret s).patternFor? url ≠ none) (by
    rw [Ne, patternFor?_eq_none, Classical.not_not])

instance (s : Secret) : Decidable s.Usable :=
  decidable_of_iff _ s.isComplete_iff

/-- the secret decides the answer for a repository unless an earlier one does -/
def Decides (s : Secret) (url : String) : Prop := s.Matches url ∧ s.Usable

instance (s : Secret) (url : String) : Decidable (s.Decides url) :=
  inferInstanceAs (Decidable (_ ∧ _))

end Secret

/-! ## decoding -/

namespace SealedCredential

/-- decoding names the secret, whether it succeeds or not -/
theorem decode_names (r : SealedCredential) :
    (∃ c, r.decode = .ok c ∧ c.secret = r.name) ∨
      ∃ reason, r.decode = .error (.malformedSecret r.name reason) := by
  unfold decode
  cases hu : decodeField r.name "username" r.username with
  | error fault =>
    obtain ⟨reason, -, rfl⟩ := concerns_of_decodeField hu
    exact .inr ⟨reason, rfl⟩
  | ok username =>
    cases ht : decodeField r.name "password" r.token with
    | error fault =>
      obtain ⟨reason, -, rfl⟩ := concerns_of_decodeField ht
      exact .inr ⟨reason, rfl⟩
    | ok token => exact .inl ⟨_, rfl, rfl⟩

end SealedCredential

/-! ## the answer -/

namespace Resolver

/-- what the records of secrets answer is what the first deciding secret answers -/
theorem answer_map_ofSecret (secrets : List Secret) (url : String) :
    answer (secrets.map SealedCredential.ofSecret) url =
      match secrets.find? (·.Decides url) with
      | none => .error (.notFound url)
      | some s => (SealedCredential.ofSecret s).decode := by
  have hp : (fun r : SealedCredential => (r.patternFor? url).isSome && r.isComplete) ∘
      SealedCredential.ofSecret = fun s : Secret => decide (s.Decides url) := by
    funext s
    rw [Bool.eq_iff_iff, Function.comp_apply, Bool.and_eq_true, decide_eq_true_eq,
      Secret.isComplete_iff, Option.isSome_iff_ne_none, Ne, Secret.patternFor?_eq_none,
      Classical.not_not]
    rfl
  unfold answer
  rw [List.find?_map, hp]
  cases secrets.find? (·.Decides url) <;> rfl

theorem answer_append_cons (before after : List Secret) (s : Secret) (url : String) :
    answer ((before ++ s :: after).map SealedCredential.ofSecret) url =
      answer ((if s.Decides url then before ++ [s] else before ++ after).map
        SealedCredential.ofSecret) url := by
  rw [answer_map_ofSecret, answer_map_ofSecret, List.find?_append]
  by_cases hs : s.Decides url
  · rw [if_pos hs, List.find?_append, List.find?_cons_of_pos (by simpa using hs),
      List.find?_cons_of_pos (by simpa using hs)]
  · rw [if_neg hs, List.find?_append, List.find?_cons_of_neg (by simpa using hs)]

/-- a resolution without reuse lists the secrets and answers from this list -/
theorem answer_resolve_never (space : String) (kept : Option Listing) (now : Nat)
    (list : String → Except RelayFault (List Secret)) (url : String) :
    ((Resolver.mk space .never kept).resolve now list url).answer =
      match list space with
      | .error fault => .error fault
      | .ok secrets => answer (secrets.map SealedCredential.ofSecret) url := by
  show (match list space with | .error fault => _ | .ok secrets => _ : Resolution).answer = _
  cases list space <;> rfl

/-- **The first secret that is for the repository and can be used decides.**  A failed listing is
the answer itself; without a deciding secret none is found; else the first one is decoded, which
gives its credential or a fault that names it.  So a secret that does not decide can be left out,
and after one that decides the others can.  The URL that a secret has for a repository is that of
the least key, of the first family if it has one there. -/
theorem resolve_first_match (space : String) (kept : Option Listing) (now : Nat)
    (list : String → Except RelayFault (List Secret)) (url : String) :
    let resolved := fun list => ((Resolver.mk space .never kept).resolve now list url).answer
    (resolved list = match list space with
      | .error fault => .error fault
      | .ok secrets =>
        match secrets.find? (·.Decides url) with
        | none => .error (.notFound url)
        | some s => (SealedCredential.ofSecret s).decode) ∧
    (∀ s : Secret,
      (∃ c, (SealedCredential.ofSecret s).decode = .ok c ∧ c.secret = s.name) ∨
        ∃ reason, (SealedCredential.ofSecret s).decode = .error (.malformedSecret s.name reason)) ∧
    (∀ before s after, resolved (fun _ => .ok (before ++ s :: after)) =
      resolved fun _ => .ok (if s.Decides url then before ++ [s] else before ++ after)) ∧
    ∀ (s : Secret) (pattern : String),
      ((SealedCredential.ofSecret s).patternFor? url = some pattern ↔
        s.LeastAnnotation SealedCredential.primaryMark url pattern ∨
          (∀ key other, ¬ s.Annotates SealedCredential.primaryMark url key other) ∧
            s.LeastAnnotation SealedCredential.fallbackMark url pattern) ∧
      ((SealedCredential.ofSecret s).patternFor? url = none ↔ ¬ s.Matches url) := by
  intro resolved
  refine ⟨?_, fun s => SealedCredential.decode_names _, fun before s after => ?_,
    fun s pattern => ⟨s.patternFor?_eq_some url pattern, s.patternFor?_eq_none url⟩⟩
  · show ((Resolver.mk space .never kept).resolve now list url).answer = _
    rw [answer_resolve_never]
    cases list space with
    | error fault => rfl
    | ok secrets => exact answer_map_ofSecret secrets url
  · show ((Resolver.mk space .never kept).resolve now _ url).answer =
      ((Resolver.mk space .never kept).resolve now _ url).answer
    rw [answer_resolve_never, answer_resolve_never]
    exact answer_append_cons before after s url

end Resolver

end ForgeRelay
