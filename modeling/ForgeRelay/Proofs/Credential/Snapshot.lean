import ForgeRelay.Credential.Vault
import ForgeRelay.Proofs.Credential.Selection
import Mathlib.Data.List.Induction

/-!
# Kept listings

A resolver that keeps its listing answers as one without reuse does on the vault as it was when the
kept listing was taken.  A `Scene` is a resolver with its vault and a clock; events change the
vault, let time pass, invalidate the listing or resolve a URL.

`Scene.Took` says which listings could still be in use: those that succeeded and were not followed
by an invalidation.  `Scene.Keeps` ties the kept listing to them: it is the latest one, and all
earlier ones were too old when it was taken.  Every event keeps this, and the answers follow.
-/

namespace ForgeRelay

structure Scene where
  vault : Vault
  /-- in nanoseconds -/
  now : Nat
  resolver : Resolver

/-- the answer of a resolver without reuse -/
def Vault.plainAnswer (vault : Vault) (space url : String) : Except RelayFault Credential :=
  ((Resolver.new space .never).resolve 0 vault.list url).answer

namespace Scene

inductive Event where
  | insert (secret : Secret)
  | remove (space name : String)
  | clear
  | setUnavailable (reason : Option String)
  /-- time passes -/
  | pass (nanos : Nat)
  | invalidate
  | resolve (url : String)

/-- whether the event changes what a listing gives -/
def Event.isChange : Event → Bool
  | .insert _ | .remove _ _ | .clear | .setUnavailable _ => true
  | _ => false

/-- every change of the vault is followed by an invalidation before the next resolution -/
def Event.Announced (events : List Event) : Prop :=
  ∀ before change between url rest,
    events = before ++ change :: (between ++ .resolve url :: rest) → change.isChange = true →
      .invalidate ∈ between

def start (space : String) (reuse : Reuse) (vault : Vault) (now : Nat) : Scene :=
  ⟨vault, now, .new space reuse⟩

/-- what a resolution would do now -/
def resolution (s : Scene) (url : String) : Resolver.Resolution :=
  s.resolver.resolve s.now s.vault.list url

def next (s : Scene) : Event → Scene
  | .insert secret => { s with vault := s.vault.insert secret }
  | .remove space name => { s with vault := (s.vault.remove space name).2 }
  | .clear => { s with vault := s.vault.clear }
  | .setUnavailable reason => { s with vault := s.vault.setUnavailable reason }
  | .pass nanos => { s with now := s.now + nanos }
  | .invalidate => { s with resolver := s.resolver.invalidate }
  | .resolve url => { s with resolver := (s.resolution url).resolver }

def after (s : Scene) (events : List Event) : Scene := events.foldl next s

theorem after_append (s : Scene) (a b : List Event) : s.after (a ++ b) = (s.after a).after b := by
  simp [after, List.foldl_append]
theorem after_concat (s : Scene) (events : List Event) (e : Event) :
    s.after (events ++ [e]) = (s.after events).next e := by
  simp [after, List.foldl_append]

end Scene

/-! ## one resolution -/

namespace Resolver

/-- whether the kept listing can be used -/
theorem fresh?_eq {r : Resolver} {limit : Duration} (hr : r.reuse = .within limit) (now : Nat) :
    r.fresh? now = r.listing.bind fun l =>
      if now - l.takenAt < limit.nanos then some l.records else none := by
  unfold fresh?
  rw [hr]
  cases r.listing <;> rfl

/-- a listing that is too old stays so -/
theorem fresh?_eq_none_of_le {r : Resolver} {now later : Nat} (h : r.fresh? now = none)
    (hle : now ≤ later) : r.fresh? later = none := by
  cases hr : r.reuse with
  | never =>
    unfold fresh?
    rw [hr]
  | within limit =>
    rw [fresh?_eq hr] at h ⊢
    cases hl : r.listing with
    | none => rfl
    | some l =>
      rw [hl, Option.bind_some] at h
      split at h
      · cases h
      · rename_i hold
        rw [Option.bind_some, if_neg (by omega)]

theorem resolve_of_fresh {r : Resolver} {now : Nat} {records : List SealedCredential}
    (h : r.fresh? now = some records) (list : String → Except RelayFault (List Secret))
    (url : String) : r.resolve now list url = ⟨answer records url, r, false⟩ := by
  unfold resolve
  rw [h]

theorem resolve_of_error {r : Resolver} {now : Nat} (h : r.fresh? now = none)
    {list : String → Except RelayFault (List Secret)} {fault : RelayFault}
    (hl : list r.space = .error fault) (url : String) :
    r.resolve now list url = ⟨.error fault, r, true⟩ := by
  unfold resolve
  rw [h, hl]

theorem resolve_of_ok {r : Resolver} {now : Nat} (h : r.fresh? now = none)
    {list : String → Except RelayFault (List Secret)} {secrets : List Secret}
    (hl : list r.space = .ok secrets) (url : String) :
    r.resolve now list url =
      ⟨answer (secrets.map .ofSecret) url, r.keep now (secrets.map .ofSecret), true⟩ := by
  unfold resolve
  rw [h, hl]

theorem listed_resolve (r : Resolver) (now : Nat)
    (list : String → Except RelayFault (List Secret)) (url : String) :
    (r.resolve now list url).listed = (r.fresh? now).isNone := by
  cases h : r.fresh? now with
  | some records => rw [resolve_of_fresh h]; rfl
  | none =>
    cases hl : list r.space with
    | error fault => rw [resolve_of_error h hl]; rfl
    | ok secrets => rw [resolve_of_ok h hl]; rfl

theorem space_keep (r : Resolver) (now : Nat) (records : List SealedCredential) :
    (r.keep now records).space = r.space ∧ (r.keep now records).reuse = r.reuse := by
  obtain ⟨space, reuse, listing⟩ := r
  cases reuse <;> exact ⟨rfl, rfl⟩

theorem space_resolve (r : Resolver) (now : Nat)
    (list : String → Except RelayFault (List Secret)) (url : String) :
    (r.resolve now list url).resolver.space = r.space ∧
      (r.resolve now list url).resolver.reuse = r.reuse := by
  cases h : r.fresh? now with
  | some records => rw [resolve_of_fresh h]; exact ⟨rfl, rfl⟩
  | none =>
    cases hl : list r.space with
    | error fault => rw [resolve_of_error h hl]; exact ⟨rfl, rfl⟩
    | ok secrets =>
      rw [resolve_of_ok h hl]
      exact space_keep ..

/-- a resolution that lists answers as one without reuse does -/
theorem answer_resolve_of_listed {r : Resolver} {now : Nat} (h : r.fresh? now = none)
    (vault : Vault) (url : String) :
    (r.resolve now vault.list url).answer = vault.plainAnswer r.space url := by
  unfold Vault.plainAnswer Resolver.new
  rw [answer_resolve_never]
  cases hl : vault.list r.space with
  | error fault => rw [resolve_of_error h hl]
  | ok secrets => rw [resolve_of_ok h hl]

end Resolver

theorem Vault.plainAnswer_of_ok {vault : Vault} {space : String} {secrets : List Secret}
    (h : vault.list space = .ok secrets) (url : String) :
    vault.plainAnswer space url = Resolver.answer (secrets.map .ofSecret) url := by
  unfold plainAnswer Resolver.new
  rw [Resolver.answer_resolve_never, h]

namespace Scene

/-! ## what events leave alone -/

theorem resolver_next (s : Scene) (e : Event) :
    (s.next e).resolver.space = s.resolver.space ∧
      (s.next e).resolver.reuse = s.resolver.reuse := by
  cases e with
  | resolve url => exact Resolver.space_resolve ..
  | _ => exact ⟨rfl, rfl⟩

theorem resolver_after (s : Scene) (events : List Event) :
    (s.after events).resolver.space = s.resolver.space ∧
      (s.after events).resolver.reuse = s.resolver.reuse := by
  induction events generalizing s with
  | nil => exact ⟨rfl, rfl⟩
  | cons e events ih =>
    obtain ⟨hspace, hreuse⟩ := s.resolver_next e
    rw [← hspace, ← hreuse]
    exact ih (s.next e)

theorem now_le_after (s : Scene) (events : List Event) : s.now ≤ (s.after events).now := by
  induction events generalizing s with
  | nil => exact Nat.le_refl _
  | cons e events ih =>
    refine Nat.le_trans ?_ (ih (s.next e))
    cases e with
    | pass nanos => exact Nat.le_add_right ..
    | _ => exact Nat.le_refl _

theorem vault_after_of_not_change (s : Scene) (events : List Event)
    (h : ∀ e ∈ events, e.isChange = false) : (s.after events).vault = s.vault := by
  induction events generalizing s with
  | nil => rfl
  | cons e events ih =>
    have he := h e (List.mem_cons_self ..)
    have hnext : (s.next e).vault = s.vault := by
      cases e with
      | insert _ | remove _ _ | clear | setUnavailable _ => cases he
      | pass _ | invalidate | resolve _ => rfl
    rw [← hnext]
    exact ih (s.next e) fun f hf => h f (List.mem_cons_of_mem _ hf)

/-- vault and clock do not depend on the resolver -/
theorem vault_after_congr {s t : Scene} (hv : s.vault = t.vault) (hn : s.now = t.now)
    (events : List Event) :
    (s.after events).vault = (t.after events).vault ∧ (s.after events).now = (t.after events).now := by
  induction events generalizing s t with
  | nil => exact ⟨hv, hn⟩
  | cons e events ih =>
    refine ih (s := s.next e) (t := t.next e) ?_ ?_
    · cases e <;> simp [next, hv]
    · cases e <;> simp [next, hn]

/-! ## listings that may be in use -/

/-- the resolution right after the events `before` listed these secrets, and no invalidation
followed -/
def Took (s : Scene) (events before : List Event) (secrets : List Secret) : Prop :=
  ∃ url rest, events = before ++ .resolve url :: rest ∧ .invalidate ∉ rest ∧
    ((s.after before).resolution url).listed = true ∧
    (s.after before).vault.list s.resolver.space = .ok secrets

theorem not_took_nil (s : Scene) (before : List Event) (secrets : List Secret) :
    ¬ s.Took [] before secrets := by
  rintro ⟨url, rest, h, -⟩
  simp at h

theorem took_concat {s : Scene} {events : List Event} {e : Event} {before : List Event}
    {secrets : List Secret} (h : s.Took (events ++ [e]) before secrets) :
    (e ≠ .invalidate ∧ s.Took events before secrets) ∨
      (before = events ∧ ∃ url, e = .resolve url ∧
        ((s.after events).resolution url).listed = true ∧
        (s.after events).vault.list s.resolver.space = .ok secrets) := by
  obtain ⟨url, rest, heq, hinv, hlisted, hlist⟩ := h
  rcases List.eq_nil_or_concat rest with rfl | ⟨rest, last, rfl⟩
  · obtain ⟨rfl, he⟩ := List.append_inj' heq rfl
    cases he
    exact .inr ⟨rfl, url, rfl, hlisted, hlist⟩
  · rw [List.concat_eq_append, ← List.cons_append, ← List.append_assoc] at heq
    obtain ⟨rfl, he⟩ := List.append_inj' heq rfl
    cases he
    rw [List.concat_eq_append, List.mem_append, not_or] at hinv
    refine .inl ⟨fun he => hinv.2 (by simp [he]), url, rest, rfl, hinv.1, hlisted, hlist⟩

theorem Took.concat {s : Scene} {events : List Event} {before : List Event}
    {secrets : List Secret} (h : s.Took events before secrets) {e : Event}
    (he : e ≠ .invalidate) : s.Took (events ++ [e]) before secrets := by
  obtain ⟨url, rest, rfl, hinv, hlisted, hlist⟩ := h
  refine ⟨url, rest ++ [e], by simp, ?_, hlisted, hlist⟩
  rw [List.mem_append, not_or]
  exact ⟨hinv, by simpa using Ne.symm he⟩

theorem Took.now_le {s : Scene} {events before : List Event} {secrets : List Secret}
    (h : s.Took events before secrets) : (s.after before).now ≤ (s.after events).now := by
  obtain ⟨url, rest, rfl, -⟩ := h
  rw [after_append]
  exact now_le_after ..

/-! ## the kept listing -/

/-- the kept listing is the latest that may be in use, and when it was taken the earlier ones were
too old -/
structure Keeps (s : Scene) (limit : Duration) (events : List Event) : Prop where
  taken : ∀ l, (s.after events).resolver.listing = some l → ∃ before secrets,
    s.Took events before secrets ∧ l = ⟨(s.after before).now, secrets.map .ofSecret⟩
  kept : ∀ before secrets, s.Took events before secrets →
    ∃ l, (s.after events).resolver.listing = some l ∧
      (l = ⟨(s.after before).now, secrets.map .ofSecret⟩ ∨
        limit.nanos ≤ l.takenAt - (s.after before).now)

theorem keeps_start (space : String) (limit : Duration) (vault : Vault) (now : Nat) :
    (start space (.within limit) vault now).Keeps limit [] := by
  refine ⟨fun l hl => ?_, fun before secrets h => ?_⟩
  · cases hl
  · exact (not_took_nil _ _ _ h).elim

/-- an event that keeps the listing, and after which the same listings may be in use -/
theorem Keeps.concat_of_same {s : Scene} {limit : Duration} {events : List Event}
    (h : s.Keeps limit events) {e : Event} (he : e ≠ .invalidate)
    (hsame : ((s.after events).next e).resolver.listing = (s.after events).resolver.listing)
    (hnew : ∀ url, e = .resolve url → ∀ secrets,
      ((s.after events).resolution url).listed = true →
        (s.after events).vault.list s.resolver.space ≠ .ok secrets) :
    s.Keeps limit (events ++ [e]) := by
  refine ⟨fun l hl => ?_, fun before secrets ht => ?_⟩
  · rw [after_concat, hsame] at hl
    obtain ⟨before, secrets, ht, heq⟩ := h.taken l hl
    exact ⟨before, secrets, ht.concat he, heq⟩
  · rw [after_concat, hsame]
    rcases took_concat ht with ⟨-, ht⟩ | ⟨-, url, hurl, hlisted, hlist⟩
    · exact h.kept before secrets ht
    · exact absurd hlist (hnew url hurl secrets hlisted)

/-- a listing that is still young enough is the kept one -/
theorem Keeps.fresh {s : Scene} {limit : Duration} {events : List Event}
    (h : s.Keeps limit events) (hr : s.resolver.reuse = .within limit) {before : List Event}
    {secrets : List Secret} (ht : s.Took events before secrets)
    (hage : (s.after events).now - (s.after before).now < limit.nanos) :
    (s.after events).resolver.fresh? (s.after events).now = some (secrets.map .ofSecret) := by
  rw [Resolver.fresh?_eq ((s.resolver_after events).2.trans hr)]
  obtain ⟨l, hl, rfl | hold⟩ := h.kept before secrets ht
  · rw [hl, Option.bind_some, if_pos hage]
  · -- the kept listing is no later than now, so the older one would have to be too old
    obtain ⟨later, other, htook, rfl⟩ := h.taken l hl
    have hle := htook.now_le
    simp only at hold
    omega

theorem Keeps.stale {s : Scene} {limit : Duration} {events : List Event}
    (h : s.Keeps limit events) (hr : s.resolver.reuse = .within limit)
    (hold : ∀ before secrets, s.Took events before secrets →
      limit.nanos ≤ (s.after events).now - (s.after before).now) :
    (s.after events).resolver.fresh? (s.after events).now = none := by
  rw [Resolver.fresh?_eq ((s.resolver_after events).2.trans hr)]
  cases hl : (s.after events).resolver.listing with
  | none => rfl
  | some l =>
    obtain ⟨before, secrets, ht, rfl⟩ := h.taken l hl
    rw [Option.bind_some, if_neg (Nat.not_lt.2 (hold before secrets ht))]

/-- a new listing is kept; those before it are too old, or the kept one was not -/
theorem Keeps.concat_of_listed {s : Scene} {limit : Duration} {events : List Event}
    (h : s.Keeps limit events) (hr : s.resolver.reuse = .within limit) {url : String}
    {secrets : List Secret}
    (hf : (s.after events).resolver.fresh? (s.after events).now = none)
    (hv : (s.after events).vault.list s.resolver.space = .ok secrets) :
    s.Keeps limit (events ++ [.resolve url]) := by
  have hspace := (s.resolver_after events).1
  have hreuse := (s.resolver_after events).2.trans hr
  have hlisted : ((s.after events).resolution url).listed = _ := Resolver.listed_resolve ..
  have hkept : ((s.after events).next (.resolve url)).resolver.listing =
      some ⟨(s.after events).now, secrets.map .ofSecret⟩ := by
    show ((s.after events).resolution url).resolver.listing = _
    unfold resolution
    rw [Resolver.resolve_of_ok hf (hspace ▸ hv)]
    unfold Resolver.keep
    rw [hreuse]
  have hnew : s.Took (events ++ [.resolve url]) events secrets :=
    ⟨url, [], rfl, by simp, by rw [hlisted, hf]; rfl, hv⟩
  refine ⟨fun l hl => ?_, fun before others ht => ?_⟩
  · rw [after_concat, hkept] at hl
    cases hl
    exact ⟨events, secrets, hnew, rfl⟩
  · rw [after_concat, hkept]
    refine ⟨_, rfl, ?_⟩
    rcases took_concat ht with ⟨-, ht⟩ | ⟨rfl, -, -, -, hv'⟩
    · refine .inr (Nat.not_lt.1 fun hage => ?_)
      rw [h.fresh hr ht hage] at hf
      cases hf
    · rw [hv] at hv'
      cases hv'
      exact .inl rfl

theorem Keeps.concat {s : Scene} {limit : Duration} {events : List Event}
    (h : s.Keeps limit events) (hr : s.resolver.reuse = .within limit) (e : Event) :
    s.Keeps limit (events ++ [e]) := by
  cases e with
  | invalidate =>
    refine ⟨fun l hl => ?_, fun before secrets ht => ?_⟩
    · rw [after_concat] at hl
      cases hl
    · rcases took_concat ht with ⟨hne, -⟩ | ⟨-, url, hurl, -⟩
      · exact absurd rfl hne
      · cases hurl
  | resolve url =>
    have hspace := (s.resolver_after events).1
    have hlisted : ((s.after events).resolution url).listed = _ := Resolver.listed_resolve ..
    cases hf : (s.after events).resolver.fresh? (s.after events).now with
    | some records =>
      refine h.concat_of_same (by simp) ?_ fun u hu secrets hl => ?_
      · show ((s.after events).resolution url).resolver.listing = _
        unfold resolution
        rw [Resolver.resolve_of_fresh hf]
      · cases hu
        rw [hlisted, hf] at hl
        cases hl
    | none =>
      cases hv : (s.after events).vault.list s.resolver.space with
      | error fault =>
        refine h.concat_of_same (by simp) ?_ fun u _ secrets _ => by simp [hv]
        show ((s.after events).resolution url).resolver.listing = _
        unfold resolution
        rw [Resolver.resolve_of_error hf (hspace ▸ hv)]
      | ok secrets => exact h.concat_of_listed hr hf hv
  | _ => exact h.concat_of_same (by simp) rfl (fun url hurl => by cases hurl)

theorem keeps_after (space : String) (limit : Duration) (vault : Vault) (now : Nat)
    (events : List Event) : (start space (.within limit) vault now).Keeps limit events := by
  induction events using List.reverseRecOn with
  | nil => exact keeps_start ..
  | append_singleton events e ih => exact ih.concat rfl e

/-! ## answers -/

/-- without reuse every resolution lists -/
theorem resolution_never (space : String) (vault : Vault) (now : Nat) (events : List Event)
    (url : String) :
    let s := (start space .never vault now).after events
    (s.resolution url).listed = true ∧
      (s.resolution url).answer = s.vault.plainAnswer space url := by
  intro s
  have hspace : s.resolver.space = space := (resolver_after _ events).1
  have hreuse : s.resolver.reuse = .never := (resolver_after _ events).2
  have hf : s.resolver.fresh? s.now = none := by
    unfold Resolver.fresh?
    rw [hreuse]
  refine ⟨(Resolver.listed_resolve ..).trans (by rw [hf]; rfl), ?_⟩
  rw [← hspace]
  exact Resolver.answer_resolve_of_listed hf s.vault url

/-- only a resolution can make a listing usable -/
theorem fresh?_after_eq_none {s : Scene} (h : s.resolver.fresh? s.now = none)
    {events : List Event} (hres : ∀ url, .resolve url ∉ events) :
    (s.after events).resolver.fresh? (s.after events).now = none := by
  induction events generalizing s with
  | nil => exact h
  | cons e events ih =>
    refine ih (s := s.next e) ?_ fun url hurl => hres url (List.mem_cons_of_mem _ hurl)
    cases e with
    | invalidate => exact Resolver.fresh?_invalidate ..
    | pass nanos => exact Resolver.fresh?_eq_none_of_le h (Nat.le_add_right ..)
    | resolve url => exact absurd (List.mem_cons_self ..) (hres url)
    | _ => exact h

/-- after a failed listing the next resolution lists again -/
theorem listed_after_error {s : Scene} {url : String} {fault : RelayFault}
    (hlist : s.vault.list s.resolver.space = .error fault)
    (hlisted : (s.resolution url).listed = true) {events : List Event}
    (hres : ∀ u, .resolve u ∉ events) (other : String) :
    (s.resolution url).answer = .error fault ∧
      ((((s.next (.resolve url)).after events).resolution other).listed = true) := by
  have hf : s.resolver.fresh? s.now = none := by
    rw [← Option.isNone_iff_eq_none, ← hlisted]
    exact (Resolver.listed_resolve ..).symm
  have hr : s.resolution url = ⟨.error fault, s.resolver, true⟩ :=
    Resolver.resolve_of_error hf hlist url
  have hnext : s.next (.resolve url) = s := by
    show { s with resolver := (s.resolution url).resolver } = s
    rw [hr]
  rw [hnext, hr]
  refine ⟨rfl, (Resolver.listed_resolve ..).trans ?_⟩
  rw [fresh?_after_eq_none hf hres]
  rfl

/-- if changes are announced, the vault is as it was when a listing that may be in use was taken -/
theorem Took.vault_eq {s : Scene} {events before : List Event} {secrets : List Secret}
    (h : s.Took events before secrets) {url : String}
    (ha : Event.Announced (events ++ [.resolve url])) :
    (s.after events).vault = (s.after before).vault := by
  obtain ⟨u, rest, rfl, hinv, -⟩ := h
  have hquiet : ∀ e ∈ Event.resolve u :: rest, e.isChange = false := by
    intro e he
    rcases List.mem_cons.1 he with rfl | he
    · rfl
    · refine Bool.eq_false_iff.2 fun hchange => hinv ?_
      obtain ⟨a, b, rfl⟩ := List.append_of_mem he
      have hmem := ha (before ++ .resolve u :: a) e b url [] (by simp) hchange
      simp [hmem]
  rw [after_append]
  exact vault_after_of_not_change _ _ hquiet

section
variable {s : Scene} {limit : Duration} {events before : List Event} {secrets : List Secret}

/-- a listing that is young enough is used, and stays the kept one -/
theorem resolution_of_young (h : s.Keeps limit events) (hr : s.resolver.reuse = .within limit)
    (ht : s.Took events before secrets)
    (hage : (s.after events).now - (s.after before).now < limit.nanos) (url : String) :
    (s.after events).resolution url =
      ⟨(s.after before).vault.plainAnswer s.resolver.space url, (s.after events).resolver,
        false⟩ := by
  have hfresh := h.fresh hr ht hage
  obtain ⟨-, -, -, -, -, hlist⟩ := ht
  rw [Vault.plainAnswer_of_ok hlist]
  exact Resolver.resolve_of_fresh hfresh (s.after events).vault.list url

theorem resolution_of_old (h : s.Keeps limit events) (hr : s.resolver.reuse = .within limit)
    (hold : ∀ before secrets, s.Took events before secrets →
      limit.nanos ≤ (s.after events).now - (s.after before).now) (url : String) :
    ((s.after events).resolution url).listed = true ∧
      ((s.after events).resolution url).answer =
        (s.after events).vault.plainAnswer s.resolver.space url := by
  have hf := h.stale hr hold
  refine ⟨(Resolver.listed_resolve ..).trans (by rw [hf]; rfl), ?_⟩
  rw [← (s.resolver_after events).1]
  exact Resolver.answer_resolve_of_listed hf (s.after events).vault url

theorem listed_iff (h : s.Keeps limit events) (hr : s.resolver.reuse = .within limit)
    (url : String) :
    ((s.after events).resolution url).listed = true ↔
      ∀ before secrets, s.Took events before secrets →
        limit.nanos ≤ (s.after events).now - (s.after before).now := by
  constructor
  · intro hlisted before secrets ht
    refine Nat.not_lt.1 fun hage => ?_
    rw [resolution_of_young h hr ht hage] at hlisted
    cases hlisted
  · intro hold
    exact (resolution_of_old h hr hold url).1

theorem answer_of_announced (h : s.Keeps limit events) (hr : s.resolver.reuse = .within limit)
    {url : String} (ha : Event.Announced (events ++ [.resolve url])) :
    ((s.after events).resolution url).answer =
      (s.after events).vault.plainAnswer s.resolver.space url := by
  by_cases hyoung : ∃ before secrets, s.Took events before secrets ∧
      (s.after events).now - (s.after before).now < limit.nanos
  · obtain ⟨before, secrets, ht, hage⟩ := hyoung
    rw [resolution_of_young h hr ht hage, ht.vault_eq ha]
  · refine (resolution_of_old h hr (fun before secrets ht => ?_) url).2
    exact Nat.not_lt.1 fun hage => hyoung ⟨before, secrets, ht, hage⟩

end

/-- **A resolver that keeps listings answers from a snapshot of bounded age.**  If a listing that
may be in use is younger than the limit, a resolution does not list, changes nothing, and answers
as one without reuse on the vault as it was then; else it lists and answers as one without reuse
does now.  A failed listing is the answer, and the next resolution lists again.  With the limit
zero, or if every change is followed by an invalidation before the next resolution, the answer is
the one without reuse. -/
theorem resolve_within_eq_snapshot (space : String) (limit : Duration) (vault : Vault) (now : Nat)
    (events : List Event) (url : String) :
    let s := start space (.within limit) vault now
    let here := s.after events
    let r := here.resolution url
    let plain := ((start space .never vault now).after events).resolution url
    (r.listed = true ↔ ∀ before secrets, s.Took events before secrets →
      limit.nanos ≤ here.now - (s.after before).now) ∧
    (r.listed = true → r.answer = here.vault.plainAnswer space url) ∧
    (∀ before secrets, s.Took events before secrets →
      here.now - (s.after before).now < limit.nanos →
        r.resolver = here.resolver ∧
          r.answer = (s.after before).vault.plainAnswer space url) ∧
    (∀ fault, here.vault.list space = .error fault → r.listed = true →
      ∀ others next, (∀ u, .resolve u ∉ others) →
        r.answer = .error fault ∧
          (((here.next (.resolve url)).after others).resolution next).listed = true) ∧
    (plain.listed = true ∧ plain.answer = here.vault.plainAnswer space url) ∧
    (limit = .zero → r.listed = plain.listed ∧ r.answer = plain.answer) ∧
    (Event.Announced (events ++ [.resolve url]) → r.answer = plain.answer) := by
  intro s here r plain
  have hkeeps : s.Keeps limit events := keeps_after space limit vault now events
  have hspace : here.resolver.space = space := (resolver_after s events).1
  have hvault : ((start space .never vault now).after events).vault = here.vault :=
    (vault_after_congr (s := start space .never vault now) (t := s) rfl rfl events).1
  have hplain : plain.listed = true ∧ plain.answer = here.vault.plainAnswer space url := by
    rw [← hvault]
    exact resolution_never space vault now events url
  have hlists := listed_iff hkeeps rfl url
  refine ⟨hlists, ?_, ?_, ?_, hplain, ?_, ?_⟩
  · intro hlisted
    exact (resolution_of_old hkeeps rfl (hlists.1 hlisted) url).2
  · intro before secrets ht hage
    have hr : r = ⟨_, here.resolver, false⟩ := resolution_of_young hkeeps rfl ht hage url
    rw [hr]
    exact ⟨rfl, rfl⟩
  · intro fault hlist hlisted others next hres
    rw [← hspace] at hlist
    exact listed_after_error hlist hlisted hres next
  · intro hzero
    have hold : ∀ before secrets, s.Took events before secrets →
        limit.nanos ≤ here.now - (s.after before).now := by
      intro before secrets _
      rw [hzero]
      exact Nat.zero_le _
    obtain ⟨hlisted, hanswer⟩ := resolution_of_old hkeeps rfl hold url
    exact ⟨hlisted.trans hplain.1.symm, hanswer.trans hplain.2.symm⟩
  · intro ha
    rw [hplain.2]
    exact answer_of_announced hkeeps rfl ha

/-- a listing of four nanoseconds ago is used, though the vault has got the secret for the URL since -/
theorem resolve_within_empty_snapshot :
    let url := "https://github.com/org/app"
    let secret : Secret := ⟨"late", "relay",
      StringMap.empty.insert "kabanero.io/git-0" "https://github.com/org",
      (StringMap.empty.insert "username" "dXNlcg==").insert "password" "dG9rZW4="⟩
    let here := (start "relay" (.within ⟨5⟩) .empty 0).after
      [.resolve url, .insert secret, .pass 4]
    (here.resolution url).answer = Vault.empty.plainAnswer "relay" url ∧
      Vault.empty.plainAnswer "relay" url = .error (.notFound url) ∧
      here.vault.plainAnswer "relay" url = .ok ⟨"user", "token", "late"⟩ := by
  intro url secret here
  have hsnapshot := (resolve_within_eq_snapshot "relay" ⟨5⟩ .empty 0
    [.resolve url, .insert secret, .pass 4] url).2.2.1 [] []
    ⟨url, [.insert secret, .pass 4], rfl, by simp, rfl, rfl⟩ (by decide)
  exact ⟨hsnapshot.2, rfl, by decide⟩

end Scene

end ForgeRelay
