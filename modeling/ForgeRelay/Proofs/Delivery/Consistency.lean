import ForgeRelay.Delivery.Topology
import Mathlib.Data.List.Nodup

/-!
# Consistent topologies

The search for a violation keeps a list of the names seen so far.  It finds none exactly in a
consistent topology: names differ within each list, no provider is without a name, and every
endpoint names a provider that is declared.

* `find?_of_nodup_names`       in a list of different names each entry is found by its name;
* `Topology.check_eq_ok_iff`   a topology passes its check exactly if it is consistent.
-/

namespace ForgeRelay

/-! ## lists of different names -/

section
variable {α : Type} {name : α → String} {entries : List α}

theorem find?_of_nodup_names (h : (entries.map name).Nodup) {a : α} (ha : a ∈ entries) :
    entries.find? (name · = name a) = some a := by
  have hsome : (entries.find? (name · = name a)).isSome := by
    rw [List.find?_isSome]
    exact ⟨a, ha, decide_eq_true rfl⟩
  obtain ⟨b, hb⟩ := Option.isSome_iff_exists.1 hsome
  have hname : name b = name a := by simpa using List.find?_some hb
  rw [hb, List.inj_on_of_nodup_map h (List.mem_of_find?_eq_some hb) ha hname]

theorem find?_eq_none_of_not_mem {key : String} (h : key ∉ entries.map name) :
    entries.find? (name · = key) = none := by
  rw [List.find?_eq_none]
  rintro a ha hkey
  exact h (List.mem_map.2 ⟨a, ha, by simpa using hkey⟩)

/-- only one entry has the name -/
theorem filter_of_nodup_names (h : (entries.map name).Nodup) {a : α} (ha : a ∈ entries) :
    entries.filter (name · = name a) = [a] := by
  induction entries with
  | nil => cases ha
  | cons b rest ih =>
    rw [List.map_cons, List.nodup_cons] at h
    rcases List.mem_cons.1 ha with rfl | ha
    · have hnone : rest.filter (name · = name a) = [] := by
        rw [List.filter_eq_nil_iff]
        intro c hc hname
        exact h.1 (List.mem_map.2 ⟨c, hc, by simpa using hname⟩)
      rw [List.filter_cons_of_pos (by simp), hnone]
    · have hne : name b ≠ name a := fun e => h.1 (e ▸ List.mem_map_of_mem ha)
      rw [List.filter_cons_of_neg (by simpa using hne)]
      exact ih h.2 ha

end

/-! ## violations -/

/-- a list has no repetition past the names that were seen -/
theorem nodup_cons_seen {α : Type} {seen : List α} {a : α} {rest : List α} :
    a ∉ seen ∧ (∀ b ∈ rest, b ∉ a :: seen) ∧ rest.Nodup ↔
      (∀ b ∈ a :: rest, b ∉ seen) ∧ (a :: rest).Nodup := by
  simp only [List.mem_cons, not_or, List.nodup_cons, forall_eq_or_imp]
  constructor
  · rintro ⟨ha, hrest, hd⟩
    exact ⟨⟨ha, fun b hb => (hrest b hb).2⟩, fun hmem => (hrest a hmem).1 rfl, hd⟩
  · rintro ⟨⟨ha, hrest⟩, hmem, hd⟩
    exact ⟨ha, fun b hb => ⟨fun e => hmem (e ▸ hb), hrest b hb⟩, hd⟩

theorem providerViolation?_eq_none {seen : List String} {ps : List Provider} :
    providerViolation? seen ps = none ↔
      (∀ p ∈ ps, p.name ≠ "") ∧
        (∀ name ∈ ps.map Provider.name, name ∉ seen) ∧ (ps.map Provider.name).Nodup := by
  induction ps generalizing seen with
  | nil => simp [providerViolation?]
  | cons p ps ih =>
    unfold providerViolation?
    rw [List.map_cons, ← nodup_cons_seen, List.forall_mem_cons]
    by_cases hname : p.name = ""
    · simp [hname]
    · by_cases hseen : p.name ∈ seen
      · simp [hname, hseen]
      · rw [if_neg hname, if_neg hseen, ih]
        exact ⟨fun ⟨hn, hs, hd⟩ => ⟨⟨hname, hn⟩, hseen, hs, hd⟩,
          fun ⟨⟨_, hn⟩, _, hs, hd⟩ => ⟨hn, hs, hd⟩⟩

theorem endpointViolation?_eq_none {role : Role} {known seen : List String}
    {es : List Endpoint} :
    endpointViolation? role known seen es = none ↔
      (∀ e ∈ es, e.provider ∈ known) ∧
        (∀ name ∈ es.map Endpoint.name, name ∉ seen) ∧ (es.map Endpoint.name).Nodup := by
  induction es generalizing seen with
  | nil => simp [endpointViolation?]
  | cons e es ih =>
    unfold endpointViolation?
    rw [List.map_cons, ← nodup_cons_seen, List.forall_mem_cons]
    by_cases hseen : e.name ∈ seen
    · simp [hseen]
    · by_cases hknown : e.provider ∈ known
      · rw [if_neg hseen, if_neg (not_not_intro hknown), ih]
        exact ⟨fun ⟨hk, hs, hd⟩ => ⟨⟨hknown, hk⟩, hseen, hs, hd⟩,
          fun ⟨⟨_, hk⟩, _, hs, hd⟩ => ⟨hk, hs, hd⟩⟩
      · simp [hseen, hknown]

namespace Topology

structure Consistent (t : Topology) : Prop where
  named : ∀ p ∈ t.providers, p.name ≠ ""
  providers : t.providerNames.Nodup
  destinations : (t.destinations.map Endpoint.name).Nodup
  sources : (t.sources.map Endpoint.name).Nodup
  /-- every endpoint names a provider that is declared -/
  carried : ∀ e, e ∈ t.destinations ∨ e ∈ t.sources → e.provider ∈ t.providerNames

theorem check_eq_ok_iff {t : Topology} : t.check = .ok () ↔ t.Consistent := by
  rw [check_eq_ok]
  unfold violation?
  rw [Option.or_eq_none_iff, Option.or_eq_none_iff, providerViolation?_eq_none,
    endpointViolation?_eq_none, endpointViolation?_eq_none]
  constructor
  · rintro ⟨⟨hnamed, -, hproviders⟩, ⟨hknown, -, hdestinations⟩, hknown', -, hsources⟩
    exact ⟨hnamed, hproviders, hdestinations, hsources, fun e he => he.elim (hknown e) (hknown' e)⟩
  · intro h
    exact ⟨⟨h.named, by simp, h.providers⟩,
      ⟨fun e he => h.carried e (.inl he), by simp, h.destinations⟩,
      fun e he => h.carried e (.inr he), by simp, h.sources⟩

theorem mem_of_source? {t : Topology} {name : String} {e : Endpoint}
    (h : t.source? name = some e) : e ∈ t.sources ∧ e.name = name :=
  ⟨List.mem_of_find?_eq_some h, by simpa using List.find?_some h⟩

theorem Consistent.exists_provider {t : Topology} (h : t.Consistent) {e : Endpoint}
    (he : e ∈ t.destinations ∨ e ∈ t.sources) : ∃ p ∈ t.providers, p.name = e.provider :=
  List.mem_map.1 (h.carried e he)

end Topology

end ForgeRelay
