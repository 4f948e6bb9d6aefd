import ForgeRelay.Proofs.Credential.Snapshot

/-!
# Resolutions that overlap

Several resolutions share a resolver, and each of them may be held up between its steps: it looks
at the kept listing, it lists the secrets if it found none, and it keeps what it listed.  A
`SharedScene` follows all of them through any order of steps; a moment is the number of events that
are over.

An invalidation drops what is kept then.  A resolution that had listed before it and keeps its
listing after it brings the old listing back, and those that begin later are answered from it.  This
is the only way in which that happens.

* `SharedScene.after_alone`            a resolution that is not held up is `Resolver.resolve`;
* `SharedScene.Moved`                  what an event makes of a call;
* `SharedScene.Traced`                 every kept listing and every answer goes back to a listing;
* `SharedScene.answered_from_listing`  which listing an answer is from.
-/

namespace ForgeRelay

/-- how far a resolution is -/
inductive Stage where
  /-- there was no listing to use -/
  | looked
  /-- the secrets were listed at a moment -/
  | listed (moment : Nat) (records : List SealedCredential)
  /-- the answer is from the listing of a moment -/
  | answered (answer : Except RelayFault Credential) (moment : Nat)

structure Call where
  url : String
  /-- the moment of its first step -/
  began : Nat
  stage : Stage

structure SharedScene extends Scene where
  moment : Nat
  /-- the moment at which the kept listing was taken -/
  origin : Nat
  calls : List Call

theorem Vault.plainAnswer_of_error {vault : Vault} {space : String} {fault : RelayFault}
    (h : vault.list space = .error fault) (url : String) :
    vault.plainAnswer space url = .error fault := by
  unfold plainAnswer Resolver.new
  rw [Resolver.answer_resolve_never, h]

/-- what is fresh is what is kept -/
theorem Resolver.exists_listing_of_fresh? {r : Resolver} {now : Nat}
    {records : List SealedCredential} (h : r.fresh? now = some records) :
    ∃ l, r.listing = some l ∧ l.records = records := by
  unfold fresh? at h
  split at h
  · rename_i limit l hr hl
    split at h
    · exact ⟨l, hl, Option.some.inj h⟩
    · cases h
  · cases h

namespace SharedScene

inductive Event where
  /-- the vault changes in some way -/
  | change (f : Vault → Vault)
  | pass (nanos : Nat)
  | invalidate
  /-- a resolution begins -/
  | look (url : String)
  | list (call : Nat)
  | keep (call : Nat)

def start (space : String) (limit : Duration) (vault : Vault) (now : Nat) : SharedScene :=
  { Scene.start space (.within limit) vault now with moment := 0, origin := 0, calls := [] }

def setStage (t : SharedScene) (i : Nat) (stage : Stage) : SharedScene :=
  { t with calls := t.calls.modify i fun c => { c with stage := stage } }

/-- the stage after a look at the kept listing -/
def look (t : SharedScene) (url : String) : Stage :=
  match t.resolver.fresh? t.now with
  | some records => .answered (Resolver.answer records url) t.origin
  | none => .looked

/-- the stage after the secrets were listed -/
def list (t : SharedScene) : Stage :=
  match t.vault.list t.resolver.space with
  | .error fault => .answered (.error fault) t.moment
  | .ok secrets => .listed t.moment (secrets.map .ofSecret)

/-- a resolution that found no listing lists the secrets -/
def listFor (t : SharedScene) (i : Nat) : SharedScene :=
  match t.calls[i]? with
  | some ⟨_, _, .looked⟩ => t.setStage i t.list
  | _ => t

/-- a resolution that listed the secrets keeps the listing and answers from it -/
def keepFor (t : SharedScene) (i : Nat) : SharedScene :=
  match t.calls[i]? with
  | some ⟨url, _, .listed moment records⟩ =>
    { t.setStage i (.answered (Resolver.answer records url) moment) with
      resolver := t.resolver.keep t.now records
      origin := moment }
  | _ => t

/-- what an event does; a step of a resolution that is not due does nothing -/
def act (t : SharedScene) : Event → SharedScene
  | .change f => { t with vault := f t.vault }
  | .pass nanos => { t with now := t.now + nanos }
  | .invalidate => { t with resolver := t.resolver.invalidate }
  | .look url => { t with calls := t.calls ++ [⟨url, t.moment, t.look url⟩] }
  | .list i => t.listFor i
  | .keep i => t.keepFor i

def next (t : SharedScene) (e : Event) : SharedScene := { t.act e with moment := t.moment + 1 }

def after (t : SharedScene) (events : List Event) : SharedScene := events.foldl next t

theorem after_concat (t : SharedScene) (events : List Event) (e : Event) :
    t.after (events ++ [e]) = (t.after events).next e := by
  unfold after
  rw [List.foldl_append]
  rfl

section
variable {t : SharedScene}

theorem look_of_fresh {records : List SealedCredential} {url : String}
    (h : t.resolver.fresh? t.now = some records) :
    t.look url = .answered (Resolver.answer records url) t.origin := by
  unfold look
  rw [h]

theorem look_of_stale {url : String} (h : t.resolver.fresh? t.now = none) :
    t.look url = .looked := by
  unfold look
  rw [h]

theorem list_of_error {fault : RelayFault}
    (h : t.vault.list t.resolver.space = .error fault) :
    t.list = .answered (.error fault) t.moment := by
  unfold list
  rw [h]

theorem list_of_ok {secrets : List Secret} (h : t.vault.list t.resolver.space = .ok secrets) :
    t.list = .listed t.moment (secrets.map .ofSecret) := by
  unfold list
  rw [h]

end

/-! ## one event -/

theorem calls_setStage (t : SharedScene) (i : Nat) (stage : Stage) (j : Nat) :
    (t.setStage i stage).calls[j]? =
      if i = j then t.calls[j]?.map fun c => { c with stage := stage } else t.calls[j]? := by
  refine (List.getElem?_modify ..).trans ?_
  by_cases h : i = j
  · simp only [h, if_true]
    rfl
  · simp only [h, if_false]
    exact id_map _

theorem calls_setStage_self {t : SharedScene} {i : Nat} {c : Call} (hc : t.calls[i]? = some c)
    (stage : Stage) : (t.setStage i stage).calls[i]? = some { c with stage := stage } := by
  rw [calls_setStage, if_pos rfl, hc]
  rfl

/-- only the call itself is at another stage then -/
theorem of_setStage {t : SharedScene} {i j : Nat} {stage : Stage} {c c' : Call}
    (hc : t.calls[i]? = some c) (h : (t.setStage i stage).calls[j]? = some c') :
    t.calls[j]? = some c' ∨ i = j ∧ c' = { c with stage := stage } := by
  by_cases hij : i = j
  · subst hij
    rw [calls_setStage_self hc] at h
    exact .inr ⟨rfl, (Option.some.inj h).symm⟩
  · rw [calls_setStage, if_neg hij] at h
    exact .inl h

theorem listFor_cases (t : SharedScene) (i : Nat) :
    t.listFor i = t ∨
      ∃ c, t.calls[i]? = some c ∧ c.stage = .looked ∧ t.listFor i = t.setStage i t.list := by
  unfold listFor
  split
  · rename_i url began hc
    exact .inr ⟨_, hc, rfl, rfl⟩
  · exact .inl rfl

theorem keepFor_cases (t : SharedScene) (i : Nat) :
    t.keepFor i = t ∨
      ∃ c moment records, t.calls[i]? = some c ∧ c.stage = .listed moment records ∧
        t.keepFor i = { t.setStage i (.answered (Resolver.answer records c.url) moment) with
          resolver := t.resolver.keep t.now records
          origin := moment } := by
  unfold keepFor
  split
  · rename_i url began moment records hc
    exact .inr ⟨_, moment, records, hc, rfl, rfl⟩
  · exact .inl rfl

/-- listing touches nothing but the call -/
theorem resolver_listFor (t : SharedScene) (i : Nat) :
    (t.listFor i).resolver = t.resolver ∧ (t.listFor i).origin = t.origin := by
  rcases t.listFor_cases i with h | ⟨c, -, -, h⟩
  · rw [h]
    exact ⟨rfl, rfl⟩
  · rw [h]
    exact ⟨rfl, rfl⟩

/-- what an event makes of a call -/
inductive Moved (t : SharedScene) (i : Nat) : Event → Call → Prop where
  | begun (url : String) : Moved t i (.look url) ⟨url, t.moment, t.look url⟩
  | listed {c : Call} (hc : t.calls[i]? = some c) (hs : c.stage = .looked) :
    Moved t i (.list i) { c with stage := t.list }
  | kept {c : Call} {moment : Nat} {records : List SealedCredential} (hc : t.calls[i]? = some c)
    (hs : c.stage = .listed moment records) :
    Moved t i (.keep i) { c with stage := .answered (Resolver.answer records c.url) moment }

theorem moved_of_next {t : SharedScene} {e : Event} {i : Nat} {c : Call}
    (h : (t.next e).calls[i]? = some c) : t.calls[i]? = some c ∨ Moved t i e c := by
  cases e with
  | change f => exact .inl h
  | pass nanos => exact .inl h
  | invalidate => exact .inl h
  | look url =>
    have h : (t.calls ++ [⟨url, t.moment, t.look url⟩])[i]? = some c := h
    rw [List.getElem?_append] at h
    split at h
    · exact .inl h
    · obtain ⟨hlt, rfl⟩ := List.getElem?_eq_some_iff.1 h
      rw [List.getElem_singleton]
      exact .inr (.begun url)
  | list j =>
    have h : (t.listFor j).calls[i]? = some c := h
    rcases t.listFor_cases j with hj | ⟨c', hc', hs, hj⟩
    · rw [hj] at h
      exact .inl h
    · rw [hj] at h
      rcases of_setStage hc' h with h | ⟨rfl, rfl⟩
      · exact .inl h
      · exact .inr (.listed hc' hs)
  | keep j =>
    have h : (t.keepFor j).calls[i]? = some c := h
    rcases t.keepFor_cases j with hj | ⟨c', moment, records, hc', hs, hj⟩
    · rw [hj] at h
      exact .inl h
    · rw [hj] at h
      rcases of_setStage hc' h with h | ⟨rfl, rfl⟩
      · exact .inl h
      · exact .inr (.kept hc' hs)

/-- a kept listing was kept before and not dropped, or a resolution keeps it now -/
theorem listing_next {t : SharedScene} {limit : Duration} (hr : t.resolver.reuse = .within limit)
    {e : Event} {l : Listing} (h : (t.next e).resolver.listing = some l) :
    (e ≠ .invalidate ∧ t.resolver.listing = some l ∧ (t.next e).origin = t.origin) ∨
      ∃ i c, e = .keep i ∧ t.calls[i]? = some c ∧
        c.stage = .listed (t.next e).origin l.records := by
  cases e with
  | change f => exact .inl ⟨nofun, h, rfl⟩
  | pass nanos => exact .inl ⟨nofun, h, rfl⟩
  | invalidate => cases h
  | look url => exact .inl ⟨nofun, h, rfl⟩
  | list j =>
    obtain ⟨hresolver, horigin⟩ := t.resolver_listFor j
    have h : (t.listFor j).resolver.listing = some l := h
    rw [hresolver] at h
    exact .inl ⟨nofun, h, horigin⟩
  | keep j =>
    have h : (t.keepFor j).resolver.listing = some l := h
    rcases t.keepFor_cases j with hj | ⟨c, moment, records, hc, hs, hj⟩
    · rw [hj] at h
      have horigin : (t.keepFor j).origin = t.origin := congrArg SharedScene.origin hj
      exact .inl ⟨nofun, h, horigin⟩
    · rw [hj] at h
      have hkept : (t.resolver.keep t.now records).listing = some ⟨t.now, records⟩ := by
        unfold Resolver.keep
        rw [hr]
      obtain rfl := Option.some.inj (hkept.symm.trans h)
      refine .inr ⟨j, c, rfl, hc, ?_⟩
      show c.stage = .listed (t.keepFor j).origin records
      rw [hj]
      exact hs

theorem resolver_next (t : SharedScene) (e : Event) :
    (t.next e).resolver.space = t.resolver.space ∧
      (t.next e).resolver.reuse = t.resolver.reuse := by
  cases e with
  | list j =>
    show (t.listFor j).resolver.space = _ ∧ (t.listFor j).resolver.reuse = _
    rw [(t.resolver_listFor j).1]
    exact ⟨rfl, rfl⟩
  | keep j =>
    show (t.keepFor j).resolver.space = _ ∧ (t.keepFor j).resolver.reuse = _
    rcases t.keepFor_cases j with hj | ⟨c, moment, records, -, -, hj⟩
    · rw [hj]
      exact ⟨rfl, rfl⟩
    · rw [hj]
      exact Resolver.space_keep ..
  | _ => exact ⟨rfl, rfl⟩

theorem resolver_after (t : SharedScene) (events : List Event) :
    (t.after events).resolver.space = t.resolver.space ∧
      (t.after events).resolver.reuse = t.resolver.reuse := by
  induction events generalizing t with
  | nil => exact ⟨rfl, rfl⟩
  | cons e events ih =>
    obtain ⟨hspace, hreuse⟩ := t.resolver_next e
    rw [← hspace, ← hreuse]
    exact ih (t.next e)

theorem moment_next (t : SharedScene) (e : Event) : (t.next e).moment = t.moment + 1 := rfl

theorem moment_after (t : SharedScene) (events : List Event) :
    (t.after events).moment = t.moment + events.length := by
  induction events generalizing t with
  | nil => rfl
  | cons e events ih =>
    have h := ih (t.next e)
    rw [moment_next] at h
    rw [List.length_cons, ← Nat.add_assoc, Nat.add_right_comm]
    exact h

/-! ## a resolution that is not held up -/

theorem listFor_of_looked {t : SharedScene} {i : Nat} {c : Call} (hc : t.calls[i]? = some c)
    (hs : c.stage = .looked) : t.listFor i = t.setStage i t.list := by
  obtain ⟨url, began, stage⟩ := c
  obtain rfl : stage = .looked := hs
  unfold listFor
  rw [hc]

theorem keepFor_of_listed {t : SharedScene} {i : Nat} {c : Call} {moment : Nat}
    {records : List SealedCredential} (hc : t.calls[i]? = some c)
    (hs : c.stage = .listed moment records) :
    t.keepFor i = { t.setStage i (.answered (Resolver.answer records c.url) moment) with
      resolver := t.resolver.keep t.now records
      origin := moment } := by
  obtain ⟨url, began, stage⟩ := c
  obtain rfl : stage = .listed moment records := hs
  unfold keepFor
  rw [hc]

/-- a call that has its answer takes no more steps -/
theorem steps_of_answered {t : SharedScene} {i : Nat} {c : Call} (hc : t.calls[i]? = some c)
    {answer : Except RelayFault Credential} {moment : Nat}
    (hs : c.stage = .answered answer moment) : t.listFor i = t ∧ t.keepFor i = t := by
  obtain ⟨url, began, stage⟩ := c
  obtain rfl : stage = .answered answer moment := hs
  unfold listFor keepFor
  rw [hc]
  exact ⟨rfl, rfl⟩

/-- a resolution whose steps follow each other is `Resolver.resolve` -/
theorem after_alone (t : SharedScene) (url : String) :
    let i := t.calls.length
    let u := t.after [.look url, .list i, .keep i]
    u.toScene = t.toScene.next (.resolve url) ∧
      ∃ moment, u.calls[i]? =
        some ⟨url, t.moment, .answered (t.toScene.resolution url).answer moment⟩ := by
  intro i u
  let a := t.next (.look url)
  let b := a.next (.list i)
  have ha : a.calls[i]? = some ⟨url, t.moment, t.look url⟩ := List.getElem?_concat_length
  have hscene : t.toScene.next (.resolve url) =
      { t.toScene with resolver := (t.toScene.resolution url).resolver } := rfl
  rw [hscene]
  show (b.keepFor i).toScene = _ ∧ ∃ moment, (b.keepFor i).calls[i]? = _
  cases hf : t.resolver.fresh? t.now with
  | some records =>
    have hres : t.toScene.resolution url = ⟨Resolver.answer records url, t.resolver, false⟩ :=
      Resolver.resolve_of_fresh hf t.vault.list url
    rw [look_of_fresh hf] at ha
    have hb : b = { a with moment := a.moment + 1 } := by
      show { a.listFor i with moment := a.moment + 1 } = _
      rw [(steps_of_answered ha rfl).1]
    have hbcalls : b.calls[i]? =
        some ⟨url, t.moment, .answered (Resolver.answer records url) t.origin⟩ := by
      rw [hb]
      exact ha
    rw [(steps_of_answered hbcalls rfl).2, hb, hres]
    exact ⟨rfl, t.origin, ha⟩
  | none =>
    rw [look_of_stale hf] at ha
    have hb : b = { a.setStage i a.list with moment := a.moment + 1 } := by
      show { a.listFor i with moment := a.moment + 1 } = _
      rw [listFor_of_looked ha rfl]
    have hbcalls : b.calls[i]? = some ⟨url, t.moment, a.list⟩ := by
      rw [hb]
      exact calls_setStage_self ha a.list
    cases hv : t.vault.list t.resolver.space with
    | error fault =>
      have hres : t.toScene.resolution url = ⟨.error fault, t.resolver, true⟩ :=
        Resolver.resolve_of_error hf hv url
      have hstage : a.list = .answered (.error fault) a.moment := list_of_error hv
      rw [hstage] at hbcalls
      rw [(steps_of_answered hbcalls rfl).2, hres]
      refine ⟨?_, a.moment, hbcalls⟩
      rw [hb]
      rfl
    | ok secrets =>
      have hres : t.toScene.resolution url = ⟨Resolver.answer (secrets.map .ofSecret) url,
          t.resolver.keep t.now (secrets.map .ofSecret), true⟩ := Resolver.resolve_of_ok hf hv url
      have hstage : a.list = .listed a.moment (secrets.map .ofSecret) := list_of_ok hv
      rw [hstage] at hbcalls
      rw [keepFor_of_listed hbcalls rfl, hres]
      refine ⟨?_, a.moment, ?_⟩
      · rw [hb]
        rfl
      · exact calls_setStage_self hbcalls _

/-! ## where listings come from -/

/-- what happened in a run has happened in a longer one -/
theorem getElem?_concat {events : List Event} {n : Nat} {e : Event} (h : events[n]? = some e)
    (last : Event) : (events ++ [last])[n]? = some e := by
  rw [List.getElem?_append_left (List.getElem?_eq_some_iff.1 h).1]
  exact h

/-- at the moment the call listed the secrets, which gave these records -/
structure Listed (s : SharedScene) (events : List Event) (call moment : Nat)
    (records : List SealedCredential) : Prop where
  event : events[moment]? = some (.list call)
  secrets : ∃ secrets, (s.after (events.take moment)).vault.list s.resolver.space = .ok secrets ∧
    records = secrets.map .ofSecret

/-- the call that listed these records at the moment kept them, and from then up to `bound` nothing
was invalidated -/
def Kept (s : SharedScene) (events : List Event) (moment : Nat) (records : List SealedCredential)
    (bound : Nat) : Prop :=
  ∃ call k, Listed s events call moment records ∧ events[k]? = some (.keep call) ∧
    moment < k ∧ k < bound ∧ ∀ n, k < n → n < bound → events[n]? ≠ some .invalidate

section
variable {s : SharedScene} {events : List Event} {moment : Nat} {records : List SealedCredential}

theorem take_concat {n : Nat} (h : n ≤ events.length) (e : Event) :
    (events ++ [e]).take n = events.take n := List.take_append_of_le_length h

theorem Listed.moment_lt {call : Nat} (h : Listed s events call moment records) :
    moment < events.length := (List.getElem?_eq_some_iff.1 h.event).1

theorem Listed.concat {call : Nat} (h : Listed s events call moment records) (e : Event) :
    Listed s (events ++ [e]) call moment records := by
  refine ⟨getElem?_concat h.event e, ?_⟩
  rw [take_concat (Nat.le_of_lt h.moment_lt)]
  exact h.secrets

/-- what a listing answers is what the vault said when it was taken -/
theorem Listed.answer {call : Nat} (h : Listed s events call moment records) (url : String) :
    Resolver.answer records url =
      (s.after (events.take moment)).vault.plainAnswer s.resolver.space url := by
  obtain ⟨secrets, hlist, rfl⟩ := h.secrets
  exact (Vault.plainAnswer_of_ok hlist url).symm

theorem Kept.moment_lt {bound : Nat} (h : Kept s events moment records bound) :
    moment < events.length := by
  obtain ⟨call, k, hlisted, -⟩ := h
  exact hlisted.moment_lt

theorem Kept.answer {bound : Nat} (h : Kept s events moment records bound) (url : String) :
    Resolver.answer records url =
      (s.after (events.take moment)).vault.plainAnswer s.resolver.space url := by
  obtain ⟨call, k, hlisted, -⟩ := h
  exact hlisted.answer url

theorem Kept.concat {bound : Nat} (h : Kept s events moment records bound)
    (hbound : bound ≤ events.length) (e : Event) :
    Kept s (events ++ [e]) moment records bound := by
  obtain ⟨call, k, hlisted, hkeep, hlt, hk, hquiet⟩ := h
  refine ⟨call, k, hlisted.concat e, getElem?_concat hkeep e, hlt, hk, fun n hkn hn => ?_⟩
  rw [List.getElem?_append_left (Nat.lt_of_lt_of_le hn hbound)]
  exact hquiet n hkn hn

/-- what is kept stays so through an event that is no invalidation -/
theorem Kept.extend (h : Kept s events moment records events.length) {e : Event}
    (he : e ≠ .invalidate) : Kept s (events ++ [e]) moment records (events ++ [e]).length := by
  obtain ⟨call, k, hlisted, hkeep, hlt, hk, hquiet⟩ := h
  rw [List.length_append, List.length_singleton]
  refine ⟨call, k, hlisted.concat e, getElem?_concat hkeep e, hlt, by omega, fun n hkn hn => ?_⟩
  rcases Nat.lt_succ_iff_lt_or_eq.1 hn with hn | rfl
  · rw [List.getElem?_append_left hn]
    exact hquiet n hkn hn
  · rw [List.getElem?_concat_length]
    exact fun h => he (Option.some.inj h)

/-- what the stage of a call goes back to -/
inductive Accounted (s : SharedScene) (events : List Event) (i : Nat) (c : Call) : Prop where
  | looked (hs : c.stage = .looked)
  | listed {moment : Nat} {records : List SealedCredential}
    (hs : c.stage = .listed moment records) (hm : c.began < moment)
    (hlisted : Listed s events i moment records)
  /-- the call has an answer from a listing of its own -/
  | own {moment : Nat} {answer : Except RelayFault Credential}
    (hs : c.stage = .answered answer moment) (hm : c.began < moment)
    (he : events[moment]? = some (.list i))
    (ha : answer = (s.after (events.take moment)).vault.plainAnswer s.resolver.space c.url)
  /-- the call has an answer from a listing that was kept when it began -/
  | shared {moment : Nat} {answer : Except RelayFault Credential} {records : List SealedCredential}
    (hs : c.stage = .answered answer moment) (hkept : Kept s events moment records c.began)
    (ha : answer = (s.after (events.take moment)).vault.plainAnswer s.resolver.space c.url)

theorem Accounted.of_listed {i : Nat} {c : Call} (h : Accounted s events i c)
    (hs : c.stage = .listed moment records) :
    c.began < moment ∧ Listed s events i moment records := by
  cases h with
  | looked hs' => cases hs.symm.trans hs'
  | listed hs' hm hlisted =>
    obtain ⟨rfl, rfl⟩ := Stage.listed.inj (hs.symm.trans hs')
    exact ⟨hm, hlisted⟩
  | own hs' _ _ _ => cases hs.symm.trans hs'
  | shared hs' _ _ => cases hs.symm.trans hs'

theorem Accounted.concat {i : Nat} {c : Call} (h : Accounted s events i c)
    (hc : c.began < events.length) (e : Event) : Accounted s (events ++ [e]) i c := by
  cases h with
  | looked hs => exact .looked hs
  | listed hs hm hlisted => exact .listed hs hm (hlisted.concat e)
  | own hs hm he ha =>
    have hlt := (List.getElem?_eq_some_iff.1 he).1
    refine .own hs hm (getElem?_concat he e) ?_
    rw [take_concat (Nat.le_of_lt hlt)]
    exact ha
  | shared hs hkept ha =>
    refine .shared hs (hkept.concat (Nat.le_of_lt hc) e) ?_
    rw [take_concat (Nat.le_of_lt hkept.moment_lt)]
    exact ha

/-- all that is kept and all that was answered is accounted for -/
structure Traced (s : SharedScene) (events : List Event) : Prop where
  kept : ∀ l, (s.after events).resolver.listing = some l →
    Kept s events (s.after events).origin l.records events.length
  begun : ∀ (i : Nat) (c : Call), (s.after events).calls[i]? = some c →
    events[c.began]? = some (.look c.url)
  calls : ∀ (i : Nat) (c : Call), (s.after events).calls[i]? = some c → Accounted s events i c

end

theorem traced_start (space : String) (limit : Duration) (vault : Vault) (now : Nat) :
    (start space limit vault now).Traced [] :=
  ⟨fun _ h => (nomatch h), fun _ _ h => (nomatch h), fun _ _ h => (nomatch h)⟩

/-- what an event made of a call is accounted for -/
theorem Traced.moved {s : SharedScene} (hs : s.moment = 0) {events : List Event}
    (h : s.Traced events) {i : Nat} {e : Event} {c : Call} (hm : Moved (s.after events) i e c) :
    (events ++ [e])[c.began]? = some (.look c.url) ∧ Accounted s (events ++ [e]) i c := by
  have hmoment : (s.after events).moment = events.length := by
    rw [moment_after, hs, Nat.zero_add]
  have hspace : (s.after events).resolver.space = s.resolver.space := (s.resolver_after events).1
  have hall : (events ++ [e]).take events.length = events := List.take_left
  cases hm with
  | begun url =>
    show (events ++ [.look url])[(s.after events).moment]? = some (.look url) ∧ _
    rw [hmoment]
    refine ⟨List.getElem?_concat_length, ?_⟩
    cases hf : (s.after events).resolver.fresh? (s.after events).now with
    | none => exact .looked (look_of_stale hf)
    | some records =>
      obtain ⟨l, hl, rfl⟩ := Resolver.exists_listing_of_fresh? hf
      have hkept := h.kept l hl
      refine .shared (look_of_fresh hf) (hkept.concat (Nat.le_refl _) _) ?_
      rw [take_concat (Nat.le_of_lt hkept.moment_lt)]
      exact hkept.answer url
  | @listed c hc hlooked =>
    have hbegun := h.begun i c hc
    have hlt : c.began < events.length := (List.getElem?_eq_some_iff.1 hbegun).1
    refine ⟨getElem?_concat hbegun _, ?_⟩
    cases hv : (s.after events).vault.list (s.after events).resolver.space with
    | error fault =>
      have hstage : (s.after events).list = .answered (.error fault) events.length :=
        hmoment ▸ list_of_error hv
      refine .own hstage hlt List.getElem?_concat_length ?_
      rw [hall, ← hspace]
      exact (Vault.plainAnswer_of_error hv c.url).symm
    | ok secrets =>
      have hstage : (s.after events).list = .listed events.length (secrets.map .ofSecret) :=
        hmoment ▸ list_of_ok hv
      refine .listed hstage hlt ⟨List.getElem?_concat_length, secrets, ?_, rfl⟩
      rw [hall, ← hspace]
      exact hv
  | @kept c moment records hc hstage =>
    have hbegun := h.begun i c hc
    obtain ⟨hm, hlisted⟩ := (h.calls i c hc).of_listed hstage
    refine ⟨getElem?_concat hbegun _, .own rfl hm (getElem?_concat hlisted.event _) ?_⟩
    rw [take_concat (Nat.le_of_lt hlisted.moment_lt)]
    exact hlisted.answer c.url

theorem Traced.concat {s : SharedScene} (hs : s.moment = 0) {events : List Event}
    (h : s.Traced events) {limit : Duration} (hr : s.resolver.reuse = .within limit) (e : Event) :
    s.Traced (events ++ [e]) := by
  have hcall : ∀ i c, (s.after (events ++ [e])).calls[i]? = some c →
      (events ++ [e])[c.began]? = some (.look c.url) ∧ Accounted s (events ++ [e]) i c := by
    intro i c hc
    rw [after_concat] at hc
    rcases moved_of_next hc with hc | hm
    · have hbegun := h.begun i c hc
      exact ⟨getElem?_concat hbegun e,
        (h.calls i c hc).concat (List.getElem?_eq_some_iff.1 hbegun).1 e⟩
    · exact h.moved hs hm
  refine ⟨fun l hl => ?_, fun i c hc => (hcall i c hc).1, fun i c hc => (hcall i c hc).2⟩
  rw [after_concat] at hl ⊢
  rcases listing_next ((s.resolver_after events).2.trans hr) hl with
    ⟨hne, hl, horigin⟩ | ⟨i, c, rfl, hc, hstage⟩
  · rw [horigin]
    exact (h.kept l hl).extend hne
  · obtain ⟨hm, hlisted⟩ := (h.calls i c hc).of_listed hstage
    refine ⟨i, events.length, hlisted.concat _, List.getElem?_concat_length, hlisted.moment_lt, ?_,
      fun n hkn hn => ?_⟩
    · rw [List.length_append, List.length_singleton]
      exact Nat.lt_succ_self _
    · rw [List.length_append, List.length_singleton] at hn
      exact absurd hkn (by omega)

theorem traced_after (space : String) (limit : Duration) (vault : Vault) (now : Nat)
    (events : List Event) : (start space limit vault now).Traced events := by
  induction events using List.reverseRecOn with
  | nil => exact traced_start ..
  | append_singleton events e ih => exact ih.concat rfl rfl e

/-! ## answers -/

/-- a listing from before an invalidation that is kept after it is used again -/
theorem look_after_late_keep {t : SharedScene} {limit : Duration}
    (hr : t.resolver.reuse = .within limit) (hpos : 0 < limit.nanos) {i : Nat} {c : Call}
    {moment : Nat} {records : List SealedCredential} (hc : t.calls[i]? = some c)
    (hs : c.stage = .listed moment records) (url : String) :
    ((t.next .invalidate).next (.keep i)).look url =
      .answered (Resolver.answer records url) moment := by
  have hc' : (t.next .invalidate).calls[i]? = some c := hc
  show look { (t.next .invalidate).keepFor i with moment := t.moment + 1 + 1 } url = _
  rw [keepFor_of_listed hc' hs]
  refine look_of_fresh ?_
  refine (Resolver.fresh?_keep t.resolver.invalidate t.now t.now records).trans ?_
  have hr' : t.resolver.invalidate.reuse = .within limit := hr
  rw [hr']
  show (if t.now - t.now < limit.nanos then some records else none) = some records
  rw [Nat.sub_self, if_pos hpos]

/-- an answer is of one listing, and over an invalidation before the resolution began that listing
can only have come from a call that was under way -/
theorem Traced.answered {s : SharedScene} {events : List Event} (h : s.Traced events) {i : Nat}
    {c : Call} {answer : Except RelayFault Credential} {moment : Nat}
    (hc : (s.after events).calls[i]? = some c) (hs : c.stage = .answered answer moment) :
    answer = (s.after (events.take moment)).vault.plainAnswer s.resolver.space c.url ∧
    ∀ n, events[n]? = some .invalidate → n < c.began →
      n < moment ∨ ∃ other k, moment < n ∧ n < k ∧ k < c.began ∧
        events[moment]? = some (.list other) ∧ events[k]? = some (.keep other) := by
  cases h.calls i c hc with
  | looked hs' => cases hs.symm.trans hs'
  | listed hs' _ _ => cases hs.symm.trans hs'
  | own hs' hm _ ha =>
    obtain ⟨rfl, rfl⟩ := Stage.answered.inj (hs.symm.trans hs')
    exact ⟨ha, fun n _ hn => .inl (Nat.lt_trans hn hm)⟩
  | shared hs' hkept ha =>
    obtain ⟨rfl, rfl⟩ := Stage.answered.inj (hs.symm.trans hs')
    refine ⟨ha, fun n hinvalidate hn => ?_⟩
    obtain ⟨other, k, hlisted, hkeep, hlt, hk, hquiet⟩ := hkept
    -- what is kept now was kept after the invalidation
    have hnk : n < k := by
      rcases Nat.lt_trichotomy n k with h | rfl | h
      · exact h
      · cases hinvalidate.symm.trans hkeep
      · exact absurd hinvalidate (hquiet n h hn)
    rcases Nat.lt_trichotomy n moment with h | rfl | h
    · exact .inl h
    · cases hinvalidate.symm.trans hlisted.event
    · exact .inr ⟨other, k, h, hnk, hk, hlisted.event, hkeep⟩

/-- what one expects of invalidations: what is answered after one was listed after it -/
def Heeds (s : SharedScene) (events : List Event) : Prop :=
  ∀ (i : Nat) (c : Call) (answer : Except RelayFault Credential) (moment : Nat),
    (s.after events).calls[i]? = some c → c.stage = .answered answer moment →
      ∀ n, events[n]? = some .invalidate → n < c.began → n < moment

/-- some call listed the secrets before an invalidation and kept its listing after it -/
def Straddles (events : List Event) : Prop :=
  ∃ call m n k : Nat, m < n ∧ n < k ∧ events[m]? = some (.list call) ∧
    events[n]? = some .invalidate ∧ events[k]? = some (.keep call)

/-- **Where answers come from.**  However resolutions that share a resolver overlap, an answer is
what the vault said at the moment of one listing.  For an invalidation before the resolution began
this listing is a later one, unless a call was under way over the invalidation: it had listed
before, and it kept its listing after the invalidation and before the resolution began.  So without
such calls invalidations are heeded; but whenever a call that has listed keeps its listing right
after an invalidation, a resolution that begins then is answered from it. -/
theorem answered_from_listing (space : String) (limit : Duration) (vault : Vault) (now : Nat)
    (events : List Event) :
    let s := start space limit vault now
    (∀ (i : Nat) (c : Call) (answer : Except RelayFault Credential) (moment : Nat),
      (s.after events).calls[i]? = some c → c.stage = .answered answer moment →
        events[c.began]? = some (.look c.url) ∧
        answer = (s.after (events.take moment)).vault.plainAnswer space c.url ∧
        ∀ n, events[n]? = some .invalidate → n < c.began →
          n < moment ∨ ∃ other k, moment < n ∧ n < k ∧ k < c.began ∧
            events[moment]? = some (.list other) ∧ events[k]? = some (.keep other)) ∧
    (¬ Straddles events → s.Heeds events) ∧
    ∀ (i : Nat) (c : Call) (moment : Nat) (records : List SealedCredential),
      (s.after events).calls[i]? = some c → c.stage = .listed moment records →
        0 < limit.nanos → ∀ url, (s.after (events ++ [.invalidate, .keep i])).look url =
          .answered (Resolver.answer records url) moment := by
  intro s
  have htraced : s.Traced events := traced_after space limit vault now events
  refine ⟨fun i c answer moment hc hs => ⟨htraced.begun i c hc, htraced.answered hc hs⟩,
    fun hno i c answer moment hc hs n hinvalidate hn => ?_,
    fun i c moment records hc hs hpos url => ?_⟩
  · rcases (htraced.answered hc hs).2 n hinvalidate hn with
      hlt | ⟨other, k, hm, hk, -, hlist, hkeep⟩
    · exact hlt
    · exact absurd ⟨other, moment, n, k, hm, hk, hlist, hinvalidate, hkeep⟩ hno
  · have hreuse : (s.after events).resolver.reuse = .within limit := (s.resolver_after events).2
    have hafter : s.after (events ++ [.invalidate, .keep i]) =
        ((s.after events).next .invalidate).next (.keep i) := List.foldl_append
    rw [hafter]
    exact look_after_late_keep hreuse hpos hc hs url

/-- a secret that is gone when the listing is invalidated -/
def departed : Secret where
  name := "creds"
  space := "relay"
  annotations := StringMap.empty.insert "kabanero.io/git-0" "https://github.com/org"
  data := (StringMap.empty.insert "username" "dXNlcg==").insert "password" "dG9rZW4="

/-- after an invalidation that no call straddles the secret is gone for good -/
theorem answered_from_listing_after_removal :
    let url := "https://github.com/org/app"
    let s := start "relay" (.ofSecs 60) (Vault.empty.insert departed) 0
    let events : List Event := [.look url, .list 0, .keep 0,
      .change fun v => (v.remove "relay" "creds").2, .invalidate, .look url, .list 1, .keep 1]
    (s.after events).calls[1]? = some ⟨url, 5, .answered (.error (.notFound url)) 6⟩ ∧
      .error (.notFound url) = (s.after (events.take 6)).vault.plainAnswer "relay" url := by
  intro url s events
  have hcall : (s.after events).calls[1]? =
      some ⟨url, 5, .answered (.error (.notFound url)) 6⟩ := rfl
  obtain ⟨hanswers, -, -⟩ := answered_from_listing "relay" (.ofSecs 60)
    (Vault.empty.insert departed) 0 events
  exact ⟨hcall, (hanswers 1 _ _ 6 hcall rfl).2.1⟩

/-- **A late listing undoes an invalidation.**  The call 0 lists a secret, which is then removed and
the kept listing invalidated; then it keeps its listing, and the call 1, which begins last of all,
is given the credential of the secret that is gone. -/
theorem late_keep_undoes_invalidation :
    let url := "https://github.com/org/app"
    let s := start "relay" (.ofSecs 60) (Vault.empty.insert departed) 0
    let events : List Event := [.look url, .list 0, .change fun v => (v.remove "relay" "creds").2,
      .invalidate, .keep 0, .look url]
    (s.after events).calls[1]? = some ⟨url, 5, .answered (.ok ⟨"user", "token", "creds"⟩) 1⟩ ∧
      (s.after events).vault.plainAnswer "relay" url = .error (.notFound url) ∧
      ¬ s.Heeds events := by
  intro url s events
  have hcall : (s.after events).calls[1]? =
      some ⟨url, 5, .answered (Resolver.answer [.ofSecret departed] url) 1⟩ := rfl
  have hanswer : Resolver.answer [.ofSecret departed] url = .ok ⟨"user", "token", "creds"⟩ := by
    decide
  rw [hanswer] at hcall
  refine ⟨hcall, rfl, fun law => ?_⟩
  exact absurd (law 1 _ _ 1 hcall rfl 3 rfl (by decide)) (by decide)

end SharedScene

end ForgeRelay
