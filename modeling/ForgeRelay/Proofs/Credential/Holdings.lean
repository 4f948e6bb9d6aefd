import ForgeRelay.Credential.Vault
import Mathlib.Data.List.Induction
import Mathlib.Data.List.Nodup

/-!
# What a vault holds

What a vault holds is told from the changes that were made to it.  A secret stands if it is the
latest of its address and nothing dropped it (`Stands`); an address came where its first secret was
put since it was last absent (`Came`); the vault is closed if the latest word on this gave a reason
(`Closed`).  All three are said of the list of changes alone.

* `stands_concat`, `came_concat`, `closed_concat`   what one more change does to them;
* `eraseP_eq_filter`                   removing the first secret of an address removes all of it;
* `Follows.concat`                     the vault keeps to them with every change;
* `contents_insert`, `contents_remove` what a change does to one namespace;
* `holds_in_order_of_coming`           what a namespace holds after any changes.
-/

namespace ForgeRelay

/-- a name within its namespace -/
def Secret.address (s : Secret) : String × String := (s.space, s.name)

namespace Vault

inductive Change where
  | insert (secret : Secret)
  | remove (space name : String)
  | clear
  | setUnavailable (reason : Option String)

namespace Change

/-- puts a secret at an address -/
def Puts : Change → String × String → Prop
  | .insert secret, address => secret.address = address
  | _, _ => False

/-- takes away what is at an address -/
def Drops : Change → String × String → Prop
  | .remove space name, address => (space, name) = address
  | .clear, _ => True
  | _, _ => False

/-- is about a namespace -/
def Concerns : Change → String → Prop
  | .insert secret, space => secret.space = space
  | .remove other _, space => other = space
  | .clear, _ => True
  | .setUnavailable _, _ => False

end Change

def apply (v : Vault) : Change → Vault
  | .insert secret => v.insert secret
  | .remove space name => (v.remove space name).2
  | .clear => v.clear
  | .setUnavailable reason => v.setUnavailable reason

/-- an empty vault after these changes -/
def after (history : List Change) : Vault := history.foldl apply empty

theorem after_concat (history : List Change) (c : Change) :
    after (history ++ [c]) = (after history).apply c := by
  simp [after, List.foldl_append]

/-! ## histories -/

/-- the secret is the latest of its address, and nothing dropped it -/
def Stands (history : List Change) (s : Secret) : Prop :=
  ∃ before rest, history = before ++ .insert s :: rest ∧
    ∀ c ∈ rest, ¬ c.Puts s.address ∧ ¬ c.Drops s.address

/-- no secret of the address stands -/
def Absent (history : List Change) (address : String × String) : Prop :=
  ∀ s, Stands history s → s.address ≠ address

/-- the change at `i` put the address there when it was absent, and nothing dropped it since -/
def Came (history : List Change) (address : String × String) (i : Nat) : Prop :=
  ∃ before c rest, history = before ++ c :: rest ∧ before.length = i ∧ c.Puts address ∧
    Absent before address ∧ ∀ c ∈ rest, ¬ c.Drops address

/-- the latest word on whether secrets can be listed gave this reason why not -/
def Closed (history : List Change) (reason : String) : Prop :=
  ∃ before rest, history = before ++ .setUnavailable (some reason) :: rest ∧
    ∀ other, .setUnavailable other ∉ rest

/-- a change with what was before and after it is the last one or an earlier one -/
theorem concat_eq_split {history before rest : List Change} {c d : Change} :
    history ++ [c] = before ++ d :: rest ↔
      (history = before ∧ c = d ∧ rest = []) ∨
        ∃ rest', rest = rest' ++ [c] ∧ history = before ++ d :: rest' := by
  constructor
  · intro h
    rcases List.eq_nil_or_concat rest with rfl | ⟨rest', last, rfl⟩
    · obtain ⟨rfl, hd⟩ := List.append_inj' h rfl
      cases hd
      exact .inl ⟨rfl, rfl, rfl⟩
    · rw [List.concat_eq_append, ← List.cons_append, ← List.append_assoc] at h
      obtain ⟨rfl, hlast⟩ := List.append_inj' h rfl
      cases hlast
      exact .inr ⟨rest', List.concat_eq_append, rfl⟩
  · rintro (⟨rfl, rfl, rfl⟩ | ⟨rest', rfl, rfl⟩)
    · rfl
    · rw [List.append_assoc]
      rfl

theorem not_stands_nil (s : Secret) : ¬ Stands [] s := by
  rintro ⟨before, rest, h, -⟩
  simp at h

theorem not_closed_nil (reason : String) : ¬ Closed [] reason := by
  rintro ⟨before, rest, h, -⟩
  simp at h

theorem not_came_nil (address : String × String) (i : Nat) : ¬ Came [] address i := by
  rintro ⟨before, c, rest, h, -⟩
  simp at h

theorem stands_concat {history : List Change} {c : Change} {s : Secret} :
    Stands (history ++ [c]) s ↔
      c = .insert s ∨ (Stands history s ∧ ¬ c.Puts s.address ∧ ¬ c.Drops s.address) := by
  constructor
  · rintro ⟨before, rest, h, hrest⟩
    rcases concat_eq_split.1 h with ⟨-, hc, -⟩ | ⟨rest', rfl, rfl⟩
    · exact .inl hc
    · rw [List.forall_mem_append, List.forall_mem_singleton] at hrest
      exact .inr ⟨⟨before, rest', rfl, hrest.1⟩, hrest.2⟩
  · rintro (rfl | ⟨⟨before, rest, rfl, hrest⟩, hc⟩)
    · exact ⟨history, [], rfl, by simp⟩
    · refine ⟨before, rest ++ [c], by simp, ?_⟩
      rw [List.forall_mem_append, List.forall_mem_singleton]
      exact ⟨hrest, hc⟩

theorem came_concat {history : List Change} {c : Change} {address : String × String} {i : Nat} :
    Came (history ++ [c]) address i ↔
      (Came history address i ∧ ¬ c.Drops address) ∨
        (i = history.length ∧ c.Puts address ∧ Absent history address) := by
  constructor
  · rintro ⟨before, d, rest, h, rfl, hputs, habsent, hrest⟩
    rcases concat_eq_split.1 h with ⟨rfl, rfl, rfl⟩ | ⟨rest', rfl, rfl⟩
    · exact .inr ⟨rfl, hputs, habsent⟩
    · rw [List.forall_mem_append, List.forall_mem_singleton] at hrest
      exact .inl ⟨⟨before, d, rest', rfl, rfl, hputs, habsent, hrest.1⟩, hrest.2⟩
  · rintro (⟨⟨before, d, rest, rfl, rfl, hputs, habsent, hrest⟩, hc⟩ | ⟨rfl, hputs, habsent⟩)
    · refine ⟨before, d, rest ++ [c], by simp, rfl, hputs, habsent, ?_⟩
      rw [List.forall_mem_append, List.forall_mem_singleton]
      exact ⟨hrest, hc⟩
    · exact ⟨history, c, [], rfl, rfl, hputs, habsent, by simp⟩

theorem closed_concat {history : List Change} {c : Change} {reason : String} :
    Closed (history ++ [c]) reason ↔ c = .setUnavailable (some reason) ∨
      (Closed history reason ∧ ∀ other, c ≠ .setUnavailable other) := by
  constructor
  · rintro ⟨before, rest, h, hrest⟩
    rcases concat_eq_split.1 h with ⟨-, hc, -⟩ | ⟨rest', rfl, rfl⟩
    · exact .inl hc
    · refine .inr ⟨⟨before, rest', rfl, fun other hmem => ?_⟩, fun other hc => ?_⟩
      · exact hrest other (List.mem_append_left _ hmem)
      · exact hrest other (by simp [hc])
  · rintro (rfl | ⟨⟨before, rest, rfl, hrest⟩, hc⟩)
    · exact ⟨history, [], rfl, by simp⟩
    · refine ⟨before, rest ++ [c], by simp, fun other hmem => ?_⟩
      rcases List.mem_append.1 hmem with hmem | hmem
      · exact hrest other hmem
      · exact hc other (List.mem_singleton.1 hmem).symm

theorem Came.lt {history : List Change} {address : String × String} {i : Nat}
    (h : Came history address i) : i < history.length := by
  obtain ⟨before, c, rest, rfl, rfl, -⟩ := h
  simp

theorem Change.Puts.exists_insert {c : Change} {address : String × String}
    (h : c.Puts address) : ∃ s, c = .insert s ∧ s.address = address := by
  cases c with
  | insert s => exact ⟨s, rfl, h⟩
  | _ => exact h.elim

/-- an address that came is there -/
theorem Came.exists_stands {history : List Change} {address : String × String} {i : Nat}
    (h : Came history address i) : ∃ s, Stands history s ∧ s.address = address := by
  induction history using List.reverseRecOn with
  | nil => exact absurd h (not_came_nil address i)
  | append_singleton history c ih =>
    by_cases hputs : c.Puts address
    · obtain ⟨s, rfl, hs⟩ := hputs.exists_insert
      exact ⟨s, stands_concat.2 (.inl rfl), hs⟩
    · rcases came_concat.1 h with ⟨hcame, hkeeps⟩ | ⟨-, hc, -⟩
      · obtain ⟨s, hs, rfl⟩ := ih hcame
        exact ⟨s, stands_concat.2 (.inr ⟨hs, hputs, hkeeps⟩), rfl⟩
      · exact absurd hc hputs

/-- an address that is there came -/
theorem Stands.exists_came {history : List Change} {s : Secret} (h : Stands history s) :
    ∃ i, Came history s.address i := by
  induction history using List.reverseRecOn generalizing s with
  | nil => exact absurd h (not_stands_nil s)
  | append_singleton history c ih =>
    rcases stands_concat.1 h with rfl | ⟨hs, -, hkeeps⟩
    · by_cases habsent : Absent history s.address
      · exact ⟨_, came_concat.2 (.inr ⟨rfl, rfl, habsent⟩)⟩
      · -- it replaces a secret of its address, which had come before
        simp only [Absent, not_forall, Classical.not_not] at habsent
        obtain ⟨t, ht, haddress⟩ := habsent
        obtain ⟨i, hi⟩ := ih ht
        rw [haddress] at hi
        exact ⟨i, came_concat.2 (.inl ⟨hi, id⟩)⟩
    · obtain ⟨i, hi⟩ := ih hs
      exact ⟨i, came_concat.2 (.inl ⟨hi, hkeeps⟩)⟩

/-- one address came before another -/
def Earlier (history : List Change) (a b : String × String) : Prop :=
  ∀ i j, Came history a i → Came history b j → i < j

theorem Earlier.concat {history : List Change} {a b : String × String}
    (h : Earlier history a b) (ha : ¬ Absent history a) (hb : ¬ Absent history b) (c : Change) :
    Earlier (history ++ [c]) a b := by
  intro i j hi hj
  rcases came_concat.1 hi with ⟨hi, -⟩ | ⟨-, -, hnew⟩
  · rcases came_concat.1 hj with ⟨hj, -⟩ | ⟨-, -, hnew⟩
    · exact h i j hi hj
    · exact absurd hnew hb
  · exact absurd hnew ha

/-- an address that is put while it is absent comes after those that are there -/
theorem earlier_concat_of_absent {history : List Change} {a b : String × String}
    (ha : ¬ Absent history a) (hb : Absent history b) (c : Change) :
    Earlier (history ++ [c]) a b := by
  intro i j hi hj
  have hbefore : i < history.length := by
    rcases came_concat.1 hi with ⟨hi, -⟩ | ⟨-, -, hnew⟩
    · exact hi.lt
    · exact absurd hnew ha
  rcases came_concat.1 hj with ⟨hj, -⟩ | ⟨rfl, -⟩
  · obtain ⟨s, hs, haddress⟩ := hj.exists_stands
    exact absurd haddress (hb s hs)
  · exact hbefore

/-! ## placing -/

theorem same_iff {a b : Secret} : Same a b ↔ a.address = b.address := by
  unfold Same Secret.address
  rw [Prod.mk.injEq]

theorem place_cons_of_same {s t : Secret} (h : Same s t) (rest : List Secret) :
    place s (t :: rest) = s :: rest := if_pos h
theorem place_cons_of_not_same {s t : Secret} (h : ¬ Same s t) (rest : List Secret) :
    place s (t :: rest) = t :: place s rest := if_neg h

/-- a secret that replaces one of its address keeps its place, a new one is the last -/
theorem map_address_place (s : Secret) (secrets : List Secret) :
    (place s secrets).map Secret.address =
      if s.address ∈ secrets.map Secret.address then secrets.map Secret.address
      else secrets.map Secret.address ++ [s.address] := by
  induction secrets with
  | nil => rfl
  | cons t rest ih =>
    by_cases hs : Same s t
    · rw [place_cons_of_same hs, List.map_cons, List.map_cons, ← same_iff.1 hs,
        if_pos (List.mem_cons_self ..)]
    · have hne : s.address ≠ t.address := fun h => hs (same_iff.2 h)
      rw [place_cons_of_not_same hs, List.map_cons, List.map_cons, ih]
      by_cases hmem : s.address ∈ rest.map Secret.address
      · rw [if_pos hmem, if_pos (List.mem_cons_of_mem _ hmem)]
      · rw [if_neg hmem, if_neg (by simp only [List.mem_cons, not_or]; exact ⟨hne, hmem⟩),
          List.cons_append]

theorem mem_place_iff {s t : Secret} {secrets : List Secret}
    (hd : (secrets.map Secret.address).Nodup) :
    t ∈ place s secrets ↔ t = s ∨ (t ∈ secrets ∧ ¬ Same s t) := by
  induction secrets with
  | nil => simp [place]
  | cons u rest ih =>
    rw [List.map_cons, List.nodup_cons] at hd
    by_cases hs : Same s u
    · have hrest : ∀ r ∈ rest, ¬ Same s r := by
        intro r hr hsr
        apply hd.1
        rw [← same_iff.1 hs, same_iff.1 hsr]
        exact List.mem_map_of_mem hr
      rw [place_cons_of_same hs, List.mem_cons]
      constructor
      · rintro (rfl | ht)
        · exact .inl rfl
        · exact .inr ⟨List.mem_cons_of_mem _ ht, hrest t ht⟩
      · rintro (rfl | ⟨ht, hst⟩)
        · exact .inl rfl
        · rcases List.mem_cons.1 ht with rfl | ht
          · exact absurd hs hst
          · exact .inr ht
    · rw [place_cons_of_not_same hs, List.mem_cons, ih hd.2, List.mem_cons]
      constructor
      · rintro (rfl | rfl | ⟨ht, hst⟩)
        · exact .inr ⟨.inl rfl, hs⟩
        · exact .inl rfl
        · exact .inr ⟨.inr ht, hst⟩
      · rintro (rfl | ⟨rfl | ht, hst⟩)
        · exact .inr (.inl rfl)
        · exact .inl rfl
        · exact .inr (.inr ⟨ht, hst⟩)

/-! ## removing -/

/-- the first secret of an address is the only one -/
theorem eraseP_eq_filter {secrets : List Secret} (hd : (secrets.map Secret.address).Nodup)
    (space name : String) :
    secrets.eraseP (fun s => s.space = space ∧ s.name = name) =
      secrets.filter fun s => ¬(s.space = space ∧ s.name = name) := by
  induction secrets with
  | nil => rfl
  | cons s rest ih =>
    rw [List.map_cons, List.nodup_cons] at hd
    by_cases hs : s.space = space ∧ s.name = name
    · have hrest : ∀ t ∈ rest, ¬(t.space = space ∧ t.name = name) := by
        rintro t ht ⟨hspace, hname⟩
        apply hd.1
        have haddress : s.address = t.address :=
          same_iff.1 ⟨hs.1.trans hspace.symm, hs.2.trans hname.symm⟩
        rw [haddress]
        exact List.mem_map_of_mem ht
      rw [List.eraseP_cons_of_pos (by simpa using hs), List.filter_cons_of_neg (by simpa using hs),
        List.filter_eq_self.2 fun t ht => decide_eq_true (hrest t ht)]
    · rw [List.eraseP_cons_of_neg (by simpa using hs), ih hd.2,
        List.filter_cons_of_pos (by rwa [decide_eq_true_iff])]

/-! ## the vault keeps to its history -/

/-- the secrets of a vault are those that stand, in the order in which their addresses came -/
structure Follows (secrets : List Secret) (history : List Change) : Prop where
  distinct : (secrets.map Secret.address).Nodup
  mem_iff : ∀ s, s ∈ secrets ↔ Stands history s
  ordered : (secrets.map Secret.address).Pairwise (Earlier history)

theorem follows_nil : Follows [] [] :=
  ⟨List.nodup_nil, fun s => ⟨fun h => (nomatch h), fun h => absurd h (not_stands_nil s)⟩,
    List.Pairwise.nil⟩

section
variable {secrets : List Secret} {history : List Change}

theorem Follows.absent_iff (h : Follows secrets history) {address : String × String} :
    Absent history address ↔ address ∉ secrets.map Secret.address := by
  constructor
  · intro habsent hmem
    obtain ⟨s, hs, haddress⟩ := List.mem_map.1 hmem
    exact habsent s ((h.mem_iff s).1 hs) haddress
  · rintro hmem s hs rfl
    exact hmem (List.mem_map_of_mem ((h.mem_iff s).2 hs))

/-- the order stays when nothing new comes -/
theorem Follows.ordered_of_sublist (h : Follows secrets history) {kept : List (String × String)}
    (hsub : kept.Sublist (secrets.map Secret.address)) (c : Change) :
    kept.Pairwise (Earlier (history ++ [c])) := by
  have hthere : ∀ a ∈ kept, ¬ Absent history a := fun a ha habsent =>
    h.absent_iff.1 habsent (hsub.subset ha)
  exact (h.ordered.sublist hsub).imp_of_mem
    fun ha hb hab => hab.concat (hthere _ ha) (hthere _ hb) c

theorem Follows.insert (h : Follows secrets history) (s : Secret) :
    Follows (place s secrets) (history ++ [.insert s]) := by
  have hmem : ∀ t, t ∈ place s secrets ↔ Stands (history ++ [.insert s]) t := by
    intro t
    rw [mem_place_iff h.distinct, stands_concat, Change.insert.injEq, h.mem_iff, same_iff]
    constructor
    · rintro (rfl | ⟨ht, hst⟩)
      · exact .inl rfl
      · exact .inr ⟨ht, hst, id⟩
    · rintro (rfl | ⟨ht, hst, -⟩)
      · exact .inl rfl
      · exact .inr ⟨ht, hst⟩
  by_cases hthere : s.address ∈ secrets.map Secret.address
  · have haddresses : (place s secrets).map Secret.address = secrets.map Secret.address := by
      rw [map_address_place, if_pos hthere]
    refine ⟨?_, hmem, ?_⟩
    · rw [haddresses]
      exact h.distinct
    · rw [haddresses]
      exact h.ordered_of_sublist (List.Sublist.refl _) _
  · have haddresses : (place s secrets).map Secret.address =
        secrets.map Secret.address ++ [s.address] := by
      rw [map_address_place, if_neg hthere]
    refine ⟨?_, hmem, ?_⟩
    · rw [haddresses, ← List.concat_eq_append]
      exact h.distinct.concat hthere
    · rw [haddresses, List.pairwise_append]
      refine ⟨h.ordered_of_sublist (List.Sublist.refl _) _, List.pairwise_singleton .., ?_⟩
      intro a ha b hb
      rw [List.mem_singleton.1 hb]
      exact earlier_concat_of_absent (fun habsent => h.absent_iff.1 habsent ha)
        (h.absent_iff.2 hthere) _

/-- a change that puts nothing leaves what it does not drop -/
theorem Follows.filter (h : Follows secrets history) {c : Change} (hputs : ∀ a, ¬ c.Puts a)
    (keeps : Secret → Bool) (hkeeps : ∀ s, keeps s = true ↔ ¬ c.Drops s.address) :
    Follows (secrets.filter keeps) (history ++ [c]) := by
  have hsub : ((secrets.filter keeps).map Secret.address).Sublist (secrets.map Secret.address) :=
    List.filter_sublist.map _
  refine ⟨h.distinct.sublist hsub, fun s => ?_, h.ordered_of_sublist hsub c⟩
  have hinsert : c ≠ .insert s := by
    rintro rfl
    exact hputs s.address rfl
  rw [List.mem_filter, h.mem_iff, hkeeps, stands_concat]
  simp [hinsert, hputs]

end

theorem Follows.concat {v : Vault} {history : List Change} (h : Follows v.secrets history)
    (c : Change) : Follows (v.apply c).secrets (history ++ [c]) := by
  cases c with
  | insert s => exact h.insert s
  | remove space name =>
    show Follows (v.secrets.eraseP _) _
    rw [eraseP_eq_filter h.distinct]
    refine h.filter (fun _ => id) _ fun s => ?_
    rw [decide_eq_true_iff]
    show ¬ (s.space = space ∧ s.name = name) ↔ ¬ (space, name) = (s.space, s.name)
    rw [Prod.mk.injEq, eq_comm (a := space), eq_comm (a := name)]
  | clear =>
    have hnone := h.filter (c := .clear) (fun _ => id) (fun _ => false)
      fun s => by simp [Change.Drops]
    rwa [List.filter_eq_nil_iff.2 fun _ _ => Bool.false_ne_true] at hnone
  | setUnavailable reason =>
    have hall := h.filter (c := .setUnavailable reason) (fun _ => id) (fun _ => true)
      fun s => by simp [Change.Drops]
    rwa [List.filter_eq_self.2 fun _ _ => rfl] at hall

theorem follows_after (history : List Change) : Follows (after history).secrets history := by
  induction history using List.reverseRecOn with
  | nil => exact follows_nil
  | append_singleton history c ih =>
    rw [after_concat]
    exact ih.concat c

/-- the reason for which secrets cannot be listed is the latest that was given -/
theorem unavailable_after (history : List Change) (reason : String) :
    (after history).unavailable = some reason ↔ Closed history reason := by
  induction history using List.reverseRecOn with
  | nil => exact ⟨fun h => (nomatch h), fun h => absurd h (not_closed_nil reason)⟩
  | append_singleton history c ih =>
    rw [after_concat, closed_concat]
    cases c with
    | setUnavailable other =>
      show other = some reason ↔ _
      simp
    | _ =>
      show (after history).unavailable = some reason ↔ _
      simp [ih]

/-! ## one namespace -/

theorem mem_contents_iff {v : Vault} {space : String} {s : Secret} :
    s ∈ v.contents space ↔ s ∈ v.secrets ∧ s.space = space := by
  unfold contents
  rw [List.mem_filter, decide_eq_true_iff]

theorem place_of_forall_not_same {s : Secret} {secrets : List Secret}
    (h : ∀ t ∈ secrets, ¬ Same s t) : place s secrets = secrets ++ [s] := by
  induction secrets with
  | nil => rfl
  | cons t rest ih =>
    obtain ⟨ht, hrest⟩ := List.forall_mem_cons.1 h
    rw [place_cons_of_not_same ht, ih hrest]
    rfl

/-- replacing changes one entry and no place -/
theorem place_of_exists_same {s : Secret} {secrets : List Secret}
    (hd : (secrets.map Secret.address).Nodup) (h : ∃ t ∈ secrets, Same s t) :
    place s secrets = secrets.map fun t => if Same s t then s else t := by
  induction secrets with
  | nil =>
    obtain ⟨t, ht, -⟩ := h
    cases ht
  | cons t rest ih =>
    rw [List.map_cons, List.nodup_cons] at hd
    by_cases hs : Same s t
    · have hrest : ∀ r ∈ rest, (if Same s r then s else r) = r := by
        intro r hr
        refine if_neg fun hsr => hd.1 ?_
        rw [← same_iff.1 hs, same_iff.1 hsr]
        exact List.mem_map_of_mem hr
      rw [place_cons_of_same hs, List.map_cons, if_pos hs, List.map_congr_left hrest, List.map_id']
    · obtain ⟨u, hu, hsu⟩ := h
      have hlater : ∃ t ∈ rest, Same s t := by
        rcases List.mem_cons.1 hu with rfl | hu
        · exact absurd hsu hs
        · exact ⟨u, hu, hsu⟩
      rw [place_cons_of_not_same hs, List.map_cons, if_neg hs, ih hd.2 hlater]

/-- a secret is placed among those of its namespace -/
theorem filter_place (s : Secret) (space : String) (secrets : List Secret) :
    (place s secrets).filter (·.space = space) =
      if s.space = space then place s (secrets.filter (·.space = space))
      else secrets.filter (·.space = space) := by
  induction secrets with
  | nil => by_cases h : s.space = space <;> simp [place, h]
  | cons t rest ih =>
    by_cases hs : Same s t
    · rw [place_cons_of_same hs, List.filter_cons, List.filter_cons, ← hs.1]
      by_cases h : s.space = space
      · rw [if_pos h, if_pos (decide_eq_true h), if_pos (decide_eq_true h), place_cons_of_same hs]
      · rw [if_neg h, if_neg (by simpa using h), if_neg (by simpa using h)]
    · rw [place_cons_of_not_same hs, List.filter_cons, List.filter_cons, ih]
      by_cases ht : t.space = space
      · rw [if_pos (decide_eq_true ht), if_pos (decide_eq_true ht)]
        by_cases h : s.space = space
        · rw [if_pos h, if_pos h, place_cons_of_not_same hs]
        · rw [if_neg h, if_neg h]
      · have hout : ¬ decide (t.space = space) = true := by simpa using ht
        rw [if_neg hout, if_neg hout]

theorem contents_insert (v : Vault) (s : Secret) :
    (v.insert s).contents s.space = place s (v.contents s.space) := by
  unfold contents insert
  rw [filter_place, if_pos rfl]

theorem contents_remove {v : Vault} (hd : (v.secrets.map Secret.address).Nodup)
    (space name : String) :
    (v.remove space name).2.contents space = (v.contents space).filter (·.name ≠ name) := by
  unfold contents remove
  rw [eraseP_eq_filter hd, List.filter_filter, List.filter_filter]
  apply List.filter_congr
  intro s _
  by_cases hspace : s.space = space <;> simp [hspace]

/-- what is not about a namespace leaves it as it is -/
theorem contents_apply_of_not_concerns {v : Vault} (hd : (v.secrets.map Secret.address).Nodup)
    {c : Change} {space : String} (h : ¬ c.Concerns space) :
    (v.apply c).contents space = v.contents space := by
  cases c with
  | insert s =>
    show (place s v.secrets).filter (·.space = space) = _
    rw [filter_place]
    exact if_neg h
  | remove other name =>
    show (v.secrets.eraseP _).filter (·.space = space) = _
    rw [eraseP_eq_filter hd, List.filter_filter]
    apply List.filter_congr
    intro s _
    by_cases hs : s.space = space
    · have hother : s.space ≠ other := fun he => h (he.symm.trans hs)
      simp [hs ▸ hother, hs]
    · simp [hs]
  | clear => exact absurd trivial h
  | setUnavailable reason => rfl

theorem find?_contents (v : Vault) (space name : String) :
    v.find? space name = (v.contents space).find? (·.name = name) := by
  unfold find? contents
  rw [List.find?_filter]
  congr 1
  funext s
  simp

theorem remove_of_find?_eq_none {v : Vault} {space name : String}
    (h : v.find? space name = none) : (v.remove space name).2 = v := by
  have hall : v.secrets.eraseP (fun s => s.space = space ∧ s.name = name) = v.secrets :=
    List.eraseP_of_forall_not (List.find?_eq_none.1 h)
  show { v with secrets := _ } = v
  rw [hall]

theorem list_eq_error_iff {v : Vault} {space reason : String} :
    v.list space = .error (.backend reason) ↔ v.unavailable = some reason := by
  unfold list
  cases v.unavailable <;> simp

theorem list_eq_ok_iff {v : Vault} {space : String} {secrets : List Secret} :
    v.list space = .ok secrets ↔ v.unavailable = none ∧ v.contents space = secrets := by
  unfold list
  cases v.unavailable <;> simp

theorem address_of_mem_contents {v : Vault} {space : String} {s : Secret}
    (h : s ∈ v.contents space) : s.address = (space, s.name) := by
  rw [← (mem_contents_iff.1 h).2]
  rfl

section
variable {v : Vault} {history : List Change} (h : Follows v.secrets history) (space : String)
include h

theorem Follows.nodup_address_contents : ((v.contents space).map Secret.address).Nodup :=
  h.distinct.sublist (List.filter_sublist.map _)

theorem Follows.nodup_name_contents : ((v.contents space).map Secret.name).Nodup := by
  have haddresses : (v.contents space).map Secret.address =
      ((v.contents space).map Secret.name).map fun name => (space, name) := by
    rw [List.map_map]
    exact List.map_congr_left fun s hs => address_of_mem_contents hs
  have hd := h.nodup_address_contents space
  rw [haddresses] at hd
  exact hd.of_map _

theorem Follows.ordered_contents :
    (v.contents space).Pairwise fun a b => Earlier history (space, a.name) (space, b.name) := by
  have ho : ((v.contents space).map Secret.address).Pairwise (Earlier history) :=
    h.ordered.sublist (List.filter_sublist.map _)
  rw [List.pairwise_map] at ho
  refine ho.imp_of_mem fun ha hb hab => ?_
  rwa [address_of_mem_contents ha, address_of_mem_contents hb] at hab

/-- a secret that is put replaces the one of its name, or comes last -/
theorem Follows.contents_insert {s : Secret} (hs : s.space = space) :
    (v.insert s).contents space = if s.name ∈ (v.contents space).map Secret.name then
      (v.contents space).map fun t => if t.name = s.name then s else t
      else v.contents space ++ [s] := by
  subst hs
  have hsame : ∀ t ∈ v.contents s.space, Same s t ↔ t.name = s.name := by
    intro t ht
    rw [same_iff, address_of_mem_contents ht, Secret.address, Prod.mk.injEq]
    simp [eq_comm]
  rw [Vault.contents_insert]
  by_cases hthere : s.name ∈ (v.contents s.space).map Secret.name
  · obtain ⟨t, ht, hname⟩ := List.mem_map.1 hthere
    rw [if_pos hthere, place_of_exists_same (h.nodup_address_contents _)
      ⟨t, ht, (hsame t ht).2 hname⟩]
    exact List.map_congr_left fun u hu => if_congr (hsame u hu) rfl rfl
  · rw [if_neg hthere, place_of_forall_not_same]
    exact fun t ht hst => hthere (List.mem_map.2 ⟨t, ht, (hsame t ht).1 hst⟩)

end

/-- **A vault is a map from names for each namespace, in the order in which they came.**  Listing
gives the secrets that stand, no name twice, the earlier ones first, and fails iff the latest word
on it gave a reason.  A secret is counted and removed as it would be listed, whether secrets can be
listed or not; one that replaces another keeps the place, one that is put again after a removal goes
last.  Nothing that is about another namespace changes this. -/
theorem holds_in_order_of_coming (history : List Change) (space : String) :
    let v := after history
    let held := v.contents space
    (held.map Secret.name).Nodup ∧
    (∀ s, s ∈ held ↔ s.space = space ∧ Stands history s) ∧
    (∀ s ∈ held, ∃ i, Came history (space, s.name) i) ∧
    held.Pairwise (fun a b => Earlier history (space, a.name) (space, b.name)) ∧
    (∀ reason, v.list space = .error (.backend reason) ↔ Closed history reason) ∧
    (∀ listed, v.list space = .ok listed ↔ (∀ reason, ¬ Closed history reason) ∧ held = listed) ∧
    v.count space = held.length ∧
    (∀ name, (v.remove space name).1 = held.find? (·.name = name) ∧
      ((v.remove space name).1 = none → (v.remove space name).2 = v) ∧
      (v.remove space name).2.contents space = held.filter (·.name ≠ name)) ∧
    (∀ s, s.space = space →
      ((v.insert s).contents space = if s.name ∈ held.map Secret.name then
        held.map fun t => if t.name = s.name then s else t
        else held ++ [s]) ∧
      ((v.remove space s.name).2.insert s).contents space =
        held.filter (·.name ≠ s.name) ++ [s]) ∧
    ∀ c, ¬ c.Concerns space → (v.apply c).contents space = held := by
  intro v held
  have h : Follows v.secrets history := follows_after history
  have hclosed : ∀ reason, v.unavailable = some reason ↔ Closed history reason :=
    unavailable_after history
  refine ⟨h.nodup_name_contents space, fun s => ?_, fun s hs => ?_, h.ordered_contents space,
    fun reason => list_eq_error_iff.trans (hclosed reason), fun listed => ?_, rfl,
    fun name =>
      ⟨v.find?_contents space name, remove_of_find?_eq_none, contents_remove h.distinct space name⟩,
    fun s hs => ⟨h.contents_insert space hs, ?_⟩,
    fun c hc => contents_apply_of_not_concerns h.distinct hc⟩
  · rw [mem_contents_iff, h.mem_iff, and_comm]
  · rw [← address_of_mem_contents hs]
    exact ((h.mem_iff s).1 (mem_contents_iff.1 hs).1).exists_came
  · rw [list_eq_ok_iff, Option.eq_none_iff_forall_ne_some]
    simp only [Ne, hclosed]
    exact Iff.rfl
  · have hremoved : Follows (v.remove space s.name).2.secrets (history ++ [.remove space s.name]) :=
      h.concat (.remove space s.name)
    rw [hremoved.contents_insert space hs, contents_remove h.distinct, if_neg]
    simp

/-- a name that is put again keeps its place, and loses it by a removal -/
example :
    let secret name : Secret := ⟨name, "relay", .empty, .empty⟩
    let twice : List Change := [.insert (secret "a"), .insert (secret "b"), .insert (secret "a")]
    let again := twice ++ [.remove "relay" "a", .insert (secret "a")]
    ((after twice).contents "relay").map Secret.name = ["a", "b"] ∧
      ((after again).contents "relay").map Secret.name = ["b", "a"] := by
  decide

end Vault

end ForgeRelay
